/-
This file proves what a wiring answers, in terms of the steps that set it up. Each of the five
tiers is described by the history alone: what was registered last for exactly the field, the first
class with a usable method of a conventional name, the default of the field, what was registered
last for the type, and what was set last for everything. A question is answered by the first tier
that has an answer, and fails when none has.
-/

import SchemaAssembly.Proofs.Field.Binding

namespace SchemaAssembly

/-! ### What a step contributes -/

namespace Registration

/-- The reference that a step registers for exactly the given field of the given type. -/
def forField? (known : KnownTargets) (type field : String) : Registration → Option Reference
  | .fieldResolver otherType otherField reference =>
    if otherType = type ∧ otherField = field then some reference else none
  | .callable otherType otherField text =>
    if otherType = type ∧ otherField = field then (Reference.parse known text).toOption else none
  | _ => none

/-- The reference that a step registers as the default of the given type. -/
def forType? (type : String) : Registration → Option Reference
  | .typeDefault otherType reference => if otherType = type then some reference else none
  | _ => none

/-- The class that a step adds. -/
def class? : Registration → Option String
  | .resolverClass className => some className
  | _ => none

/-- What a step makes the default of everything, which may be nothing. -/
def forAll? : Registration → Option (Option Reference)
  | .globalDefault reference => some reference
  | _ => none

end Registration

namespace Wiring

/-! ### What a history amounts to -/

/-- The last reference registered for exactly a field of a type. -/
def lastForField (known : KnownTargets) (history : List Registration) (type field : String) :
    Option Reference :=
  (history.filterMap (Registration.forField? known type field)).getLast?

/-- The last reference registered as the default of a type. -/
def lastForType (history : List Registration) (type : String) : Option Reference :=
  (history.filterMap (Registration.forType? type)).getLast?

/-- The classes that were added, in the order in which they were added first. -/
def classesOf (history : List Registration) : List String :=
  (history.filterMap Registration.class?).eraseDups

/-- What was made the default of everything last, if anything was. -/
def lastForAll (history : List Registration) : Option (Option Reference) :=
  (history.filterMap Registration.forAll?).getLast?

/-- The reference is to the first usable method on the first class that has a usable one. -/
def IsFirstUsable (known : KnownTargets) (classes methods : List String) (reference : Reference) :
    Prop :=
  ∃ earlierClasses className laterClasses earlierMethods methodName laterMethods,
    classes = earlierClasses ++ className :: laterClasses ∧
      methods = earlierMethods ++ methodName :: laterMethods ∧
      (∀ other ∈ earlierClasses, ∀ method ∈ methods, ¬Target.IsUsable known ⟨other, method⟩) ∧
      (∀ method ∈ earlierMethods, ¬Target.IsUsable known ⟨className, method⟩) ∧
      Target.IsUsable known ⟨className, methodName⟩ ∧
      reference = ⟨className, methodName⟩

/-- A tier answers a question about a field of a type, with the given default of the field, by a
reference. -/
def Answers (known : KnownTargets) (history : List Registration) (type field : String)
    (fieldDefault : Option Reference) (reference : Reference) : Tier → Prop
  | .explicit => lastForField known history type field = some reference
  | .convention =>
    IsFirstUsable known (classesOf history)
      ["resolve" ++ Text.capitalized type ++ Text.capitalized field,
        "resolve" ++ Text.capitalized field] reference
  | .fieldDefault => fieldDefault = some reference
  | .typeDefault =>
    lastForType history type = some reference ∨
      lastForType history type = none ∧
        IsFirstUsable known (classesOf history) ["resolve" ++ Text.capitalized type] reference
  | .globalDefault =>
    lastForAll history = some (some reference) ∨
      lastForAll history = none ∧ Target.standard.IsUsable known ∧ reference = ⟨Target.standard⟩

end Wiring

/-- The place of a tier: a tier of a lower place is asked before. -/
def Tier.place : Tier → Nat
  | .explicit => 1
  | .convention => 2
  | .fieldDefault => 3
  | .typeDefault => 4
  | .globalDefault => 5

namespace Wiring

/-- A tier answers, and no tier before it does. -/
def IsFirstAnswer (known : KnownTargets) (history : List Registration) (type field : String)
    (fieldDefault : Option Reference) (tier : Tier) (reference : Reference) : Prop :=
  Answers known history type field fieldDefault reference tier ∧
    ∀ earlier : Tier, earlier.place < tier.place →
      ∀ other, ¬Answers known history type field fieldDefault other earlier

/-! ### The tables of a wiring are those of its history -/

theorem ofHistory_concat (known : KnownTargets) (history : List Registration)
    (last : Registration) :
    ofHistory known (history ++ [last]) = (ofHistory known history).register last := by
  rw [ofHistory, List.foldl_append]
  rfl

theorem getLast?_filterMap_concat {α : Type} (contribution : Registration → Option α)
    (history : List Registration) (last : Registration) :
    ((history ++ [last]).filterMap contribution).getLast? =
      (contribution last).or (history.filterMap contribution).getLast? := by
  rw [List.filterMap_append, List.getLast?_append]
  cases given : contribution last with
  | none => rw [List.filterMap_cons_none given, List.filterMap_nil]; rfl
  | some value => rw [List.filterMap_cons_some given, List.filterMap_nil]; rfl

/-- No step changes which functions are known. -/
theorem known_register (wiring : Wiring) (step : Registration) :
    (wiring.register step).known = wiring.known := by
  cases step with
  | fieldResolver type field reference => rfl
  | callable type field text =>
    rw [register, registerCallable]
    split <;> rfl
  | typeDefault type reference => rfl
  | resolverClass className =>
    rw [register]
    split <;> rfl
  | globalDefault reference => rfl

theorem get?_fieldResolvers_register (wiring : Wiring) (step : Registration)
    (type field : String) :
    (wiring.register step).fieldResolvers.get? (type, field) =
      (step.forField? wiring.known type field).or (wiring.fieldResolvers.get? (type, field)) := by
  cases step with
  | fieldResolver otherType otherField reference =>
    rw [register, setFieldResolver, Keyed.get?_set, Registration.forField?]
    simp only [Prod.mk.injEq]
    split <;> rfl
  | callable otherType otherField text =>
    rw [register, registerCallable, Registration.forField?]
    cases Reference.parse wiring.known text with
    | ok reference =>
      show (wiring.setFieldResolver otherType otherField reference).fieldResolvers.get? _ = _
      rw [setFieldResolver, Keyed.get?_set]
      simp only [Prod.mk.injEq]
      split <;> rfl
    | error problem =>
      show wiring.fieldResolvers.get? _ = _
      split <;> rfl
  | typeDefault otherType reference => rfl
  | resolverClass className =>
    rw [register]
    split <;> rfl
  | globalDefault reference => rfl

theorem get?_typeDefaults_register (wiring : Wiring) (step : Registration) (type : String) :
    (wiring.register step).typeDefaults.get? type =
      (step.forType? type).or (wiring.typeDefaults.get? type) := by
  cases step with
  | fieldResolver otherType field reference => rfl
  | callable otherType field text =>
    rw [register, registerCallable]
    split <;> rfl
  | typeDefault otherType reference =>
    rw [register, Keyed.get?_set, Registration.forType?]
    split <;> rfl
  | resolverClass className =>
    rw [register]
    split <;> rfl
  | globalDefault reference => rfl

theorem globalDefault_register (wiring : Wiring) (step : Registration) :
    (wiring.register step).globalDefault = step.forAll?.getD wiring.globalDefault := by
  cases step with
  | fieldResolver type field reference => rfl
  | callable type field text =>
    rw [register, registerCallable]
    split <;> rfl
  | typeDefault type reference => rfl
  | resolverClass className =>
    rw [register]
    split <;> rfl
  | globalDefault reference => rfl

/-- A class is added unless it is there. -/
theorem resolverClasses_register (wiring : Wiring) (step : Registration) :
    (wiring.register step).resolverClasses =
      wiring.resolverClasses ++ step.class?.toList.removeAll wiring.resolverClasses := by
  cases step with
  | fieldResolver type field reference => exact (List.append_nil _).symm
  | callable type field text =>
    rw [register, registerCallable]
    split <;> exact (List.append_nil _).symm
  | typeDefault type reference => exact (List.append_nil _).symm
  | resolverClass className =>
    rw [register]
    split
    · next present => simp [Registration.class?, List.removeAll, List.contains_iff_mem.mp present]
    · next absent =>
      simp [Registration.class?, List.removeAll, List.contains_iff_mem.not.mp absent]
  | globalDefault reference => exact (List.append_nil _).symm

theorem known_ofHistory (known : KnownTargets) (history : List Registration) :
    (ofHistory known history).known = known := by
  induction history using List.reverseRecOn with
  | nil => rfl
  | append_singleton earlier last inductionHypothesis =>
    rw [ofHistory_concat, known_register, inductionHypothesis]

/-- Exactly for a field is found what was registered for it last. -/
theorem get?_fieldResolvers_ofHistory (known : KnownTargets) (history : List Registration)
    (type field : String) :
    (ofHistory known history).fieldResolvers.get? (type, field) =
      lastForField known history type field := by
  induction history using List.reverseRecOn with
  | nil => rfl
  | append_singleton earlier last inductionHypothesis =>
    rw [ofHistory_concat, get?_fieldResolvers_register, known_ofHistory, inductionHypothesis,
      lastForField, lastForField, getLast?_filterMap_concat]

theorem get?_typeDefaults_ofHistory (known : KnownTargets) (history : List Registration)
    (type : String) :
    (ofHistory known history).typeDefaults.get? type = lastForType history type := by
  induction history using List.reverseRecOn with
  | nil => rfl
  | append_singleton earlier last inductionHypothesis =>
    rw [ofHistory_concat, get?_typeDefaults_register, inductionHypothesis, lastForType,
      lastForType, getLast?_filterMap_concat]

/-- The default of everything is what was set last, and at first the standard function. -/
theorem globalDefault_ofHistory (known : KnownTargets) (history : List Registration) :
    (ofHistory known history).globalDefault =
      (lastForAll history).getD (Reference.check known Target.standard).toOption := by
  induction history using List.reverseRecOn with
  | nil => rfl
  | append_singleton earlier last inductionHypothesis =>
    rw [ofHistory_concat, globalDefault_register, inductionHypothesis, lastForAll, lastForAll,
      getLast?_filterMap_concat]
    cases last.forAll? <;> rfl

theorem removeAll_eraseDups (className : String) (classes : List String) :
    [className].removeAll classes.eraseDups = ([className].removeAll classes).eraseDups := by
  by_cases present : className ∈ classes
  · simp [List.removeAll, List.mem_eraseDups, present]
  · simp [List.removeAll, List.mem_eraseDups, present, List.eraseDups_cons]

/-- The classes stand in the order in which they were added first. -/
theorem resolverClasses_ofHistory (known : KnownTargets) (history : List Registration) :
    (ofHistory known history).resolverClasses = classesOf history := by
  induction history using List.reverseRecOn with
  | nil => rfl
  | append_singleton earlier last inductionHypothesis =>
    rw [ofHistory_concat, resolverClasses_register, inductionHypothesis, classesOf, classesOf,
      List.filterMap_append, List.eraseDups_append]
    congr 1
    cases added : last.class? with
    | none =>
      rw [List.filterMap_cons_none added]
      rfl
    | some className =>
      rw [List.filterMap_cons_some added, List.filterMap_nil]
      exact removeAll_eraseDups className _

/-! ### What a tier answers -/

theorem toOption_check_eq_some_iff (known : KnownTargets) (target : Target)
    (reference : Reference) :
    (Reference.check known target).toOption = some reference ↔
      target.IsUsable known ∧ reference = ⟨target⟩ := by
  rw [← Reference.check_eq_ok_iff]
  cases Reference.check known target <;> simp [Except.toOption]

theorem toOption_check_eq_none_iff (known : KnownTargets) (target : Target) :
    (Reference.check known target).toOption = none ↔ ¬target.IsUsable known := by
  rw [Option.eq_none_iff_forall_ne_some]
  constructor
  · intro none usable
    exact none ⟨target⟩ ((toOption_check_eq_some_iff known target _).mpr ⟨usable, rfl⟩)
  · intro unusable reference some
    exact unusable ((toOption_check_eq_some_iff known target reference).mp some).1

/-- The methods of one class are tried in order. -/
theorem findSome?_methods_eq_some_iff (known : KnownTargets) (className : String)
    (methods : List String) (reference : Reference) :
    (methods.findSome? fun method => (Reference.check known ⟨className, method⟩).toOption) =
        some reference ↔
      ∃ earlier methodName later, methods = earlier ++ methodName :: later ∧
        (∀ method ∈ earlier, ¬Target.IsUsable known ⟨className, method⟩) ∧
        Target.IsUsable known ⟨className, methodName⟩ ∧ reference = ⟨className, methodName⟩ := by
  rw [List.findSome?_eq_some_iff]
  simp only [toOption_check_eq_some_iff, toOption_check_eq_none_iff]
  constructor
  · rintro ⟨earlier, methodName, later, split, found, missed⟩
    exact ⟨earlier, methodName, later, split, missed, found⟩
  · rintro ⟨earlier, methodName, later, split, missed, found⟩
    exact ⟨earlier, methodName, later, split, found, missed⟩

/-- The classes are tried in order, and all methods on one before the next. -/
theorem onResolverClasses_eq_some_iff (wiring : Wiring) (methods : List String)
    (reference : Reference) :
    wiring.onResolverClasses methods = some reference ↔
      IsFirstUsable wiring.known wiring.resolverClasses methods reference := by
  rw [onResolverClasses, List.findSome?_eq_some_iff]
  simp only [findSome?_methods_eq_some_iff, List.findSome?_eq_none_iff,
    toOption_check_eq_none_iff]
  constructor
  · rintro ⟨earlierClasses, className, laterClasses, splitClasses,
      ⟨earlier, methodName, later, splitMethods, missedMethods, usable, equal⟩, missedClasses⟩
    exact ⟨earlierClasses, className, laterClasses, earlier, methodName, later, splitClasses,
      splitMethods, missedClasses, missedMethods, usable, equal⟩
  · rintro ⟨earlierClasses, className, laterClasses, earlier, methodName, later, splitClasses,
      splitMethods, missedClasses, missedMethods, usable, equal⟩
    exact ⟨earlierClasses, className, laterClasses, splitClasses,
      ⟨earlier, methodName, later, splitMethods, missedMethods, usable, equal⟩, missedClasses⟩

theorem conventionalName_one (part : String) :
    conventionalName [part] = "resolve" ++ Text.capitalized part := rfl

theorem conventionalName_two (first second : String) :
    conventionalName [first, second] =
      "resolve" ++ Text.capitalized first ++ Text.capitalized second := rfl

/-- A tier of a wiring answers what the history makes it answer. -/
theorem atTier_ofHistory_eq_some_iff (known : KnownTargets) (history : List Registration)
    (type field : String) (fieldDefault : Option Reference) (tier : Tier)
    (reference : Reference) :
    (ofHistory known history).atTier type field fieldDefault tier = some reference ↔
      Answers known history type field fieldDefault reference tier := by
  cases tier with
  | explicit => rw [atTier, get?_fieldResolvers_ofHistory, Answers]
  | convention =>
    rw [atTier, onResolverClasses_eq_some_iff, known_ofHistory, resolverClasses_ofHistory,
      conventionalName_one, conventionalName_two, Answers]
  | fieldDefault => rw [atTier, Answers]
  | typeDefault =>
    rw [atTier, get?_typeDefaults_ofHistory, Answers]
    cases lastForType history type with
    | some registered => simp
    | none =>
      dsimp only
      rw [onResolverClasses_eq_some_iff, known_ofHistory, resolverClasses_ofHistory,
        conventionalName_one]
      simp
  | globalDefault =>
    rw [atTier, globalDefault_ofHistory, Answers]
    cases lastForAll history with
    | some set => simp
    | none =>
      rw [Option.getD_none, toOption_check_eq_some_iff]
      simp

/-! ### The first answer -/

/-- The tiers that are asked before one are those of a lower place. -/
theorem mem_earlier_iff {tier : Tier} {earlier later : List Tier}
    (split : Tier.all = earlier ++ tier :: later) (other : Tier) :
    other ∈ earlier ↔ other.place < tier.place := by
  have sorted : Tier.all.Pairwise fun first second => first.place < second.place := by decide
  rw [split, List.pairwise_append, List.pairwise_cons] at sorted
  obtain ⟨-, ⟨afterTier, -⟩, across⟩ := sorted
  constructor
  · intro inEarlier
    exact across other inEarlier tier List.mem_cons_self
  · intro lower
    have member : other ∈ earlier ++ tier :: later := by
      rw [← split]
      cases other <;> decide
    rcases List.mem_append.mp member with inEarlier | inRest
    · exact inEarlier
    · rcases List.mem_cons.mp inRest with rfl | inLater
      · exact absurd lower (Nat.lt_irrefl _)
      · exact absurd (afterTier other inLater) (Nat.lt_asymm lower)

/-- A question is answered by the first tier that has an answer. -/
theorem findWithTier_eq_ok_iff (wiring : Wiring) (type field : String)
    (fieldDefault : Option Reference) (tier : Tier) (reference : Reference) :
    wiring.findWithTier type field fieldDefault = .ok (tier, reference) ↔
      wiring.atTier type field fieldDefault tier = some reference ∧
        ∀ earlier : Tier, earlier.place < tier.place →
          wiring.atTier type field fieldDefault earlier = none := by
  have found : wiring.findWithTier type field fieldDefault = .ok (tier, reference) ↔
      (Tier.all.findSome? fun tier =>
        (wiring.atTier type field fieldDefault tier).map fun reference => (tier, reference)) =
        some (tier, reference) := by
    rw [findWithTier]
    split
    · next answer equal => rw [equal, Except.ok.injEq, Option.some.injEq]
    · next equal => simp [equal]
  rw [found, List.findSome?_eq_some_iff]
  constructor
  · rintro ⟨earlier, asked, later, split, answer, missed⟩
    obtain ⟨given, atTier, equal⟩ := Option.map_eq_some_iff.mp answer
    obtain ⟨rfl, rfl⟩ := Prod.mk.injEq .. ▸ equal
    refine ⟨atTier, fun other lower => ?_⟩
    exact Option.map_eq_none_iff.mp (missed other ((mem_earlier_iff split other).mpr lower))
  · rintro ⟨atTier, missed⟩
    have member : tier ∈ Tier.all := by cases tier <;> decide
    obtain ⟨earlier, later, split⟩ := List.append_of_mem member
    refine ⟨earlier, tier, later, split, by rw [atTier]; rfl, fun other inEarlier => ?_⟩
    rw [missed other ((mem_earlier_iff split other).mp inEarlier)]
    rfl

/-- A question fails when no tier has an answer, and in no other way. -/
theorem findWithTier_eq_error_iff (wiring : Wiring) (type field : String)
    (fieldDefault : Option Reference) (problem : Problem) :
    wiring.findWithTier type field fieldDefault = .error problem ↔
      problem = .noResolverFound type field ∧
        ∀ tier, wiring.atTier type field fieldDefault tier = none := by
  rw [findWithTier]
  split
  · next answer equal =>
    obtain ⟨tier, -, given⟩ := List.exists_of_findSome?_eq_some equal
    refine iff_of_false (fun same => by simp at same) ?_
    rintro ⟨-, missed⟩
    rw [missed tier] at given
    simp at given
  · next equal =>
    rw [List.findSome?_eq_none_iff] at equal
    rw [Except.error.injEq, eq_comm, iff_self_and]
    intro _ tier
    exact Option.map_eq_none_iff.mp (equal tier (by cases tier <;> decide))

theorem findWithTier_ofHistory_eq_ok_iff (known : KnownTargets) (history : List Registration)
    (type field : String) (fieldDefault : Option Reference) (tier : Tier)
    (reference : Reference) :
    (ofHistory known history).findWithTier type field fieldDefault = .ok (tier, reference) ↔
      IsFirstAnswer known history type field fieldDefault tier reference := by
  rw [findWithTier_eq_ok_iff, IsFirstAnswer, atTier_ofHistory_eq_some_iff]
  simp only [Option.eq_none_iff_forall_ne_some, ne_eq, atTier_ofHistory_eq_some_iff]

theorem findWithTier_ofHistory_eq_error_iff (known : KnownTargets) (history : List Registration)
    (type field : String) (fieldDefault : Option Reference) (problem : Problem) :
    (ofHistory known history).findWithTier type field fieldDefault = .error problem ↔
      problem = .noResolverFound type field ∧
        ∀ tier reference, ¬Answers known history type field fieldDefault reference tier := by
  rw [findWithTier_eq_error_iff]
  simp only [Option.eq_none_iff_forall_ne_some, ne_eq, atTier_ofHistory_eq_some_iff]

theorem find_eq_ok_iff (wiring : Wiring) (type field : String)
    (fieldDefault : Option Reference) (reference : Reference) :
    wiring.find type field fieldDefault = .ok reference ↔
      ∃ tier, wiring.findWithTier type field fieldDefault = .ok (tier, reference) := by
  rw [find]
  cases wiring.findWithTier type field fieldDefault with
  | error problem => simp [Except.map]
  | ok answer =>
    obtain ⟨tier, found⟩ := answer
    simp [Except.map]

theorem find_eq_error_iff (wiring : Wiring) (type field : String)
    (fieldDefault : Option Reference) (problem : Problem) :
    wiring.find type field fieldDefault = .error problem ↔
      wiring.findWithTier type field fieldDefault = .error problem := by
  rw [find]
  cases wiring.findWithTier type field fieldDefault <;> simp [Except.map]

/-- The wiring that a history leads to answers every question by the first tier that has an
answer, and fails exactly when all five miss. A field asks it only below its own resolver, and
only with a default resolver that is usable; its own targets never give way to the tiers. -/
theorem findWithTier_ofHistory (known : KnownTargets) (history : List Registration)
    (type field : String) (fieldDefault : Option Reference) (holder : Field)
    (wired : holder.wiring = ofHistory known history) (owner : String) :
    (∀ tier reference,
      (ofHistory known history).findWithTier type field fieldDefault = .ok (tier, reference) ↔
        IsFirstAnswer known history type field fieldDefault tier reference) ∧
    (∀ reference, (ofHistory known history).find type field fieldDefault = .ok reference ↔
      ∃ tier, IsFirstAnswer known history type field fieldDefault tier reference) ∧
    (∀ problem, (ofHistory known history).findWithTier type field fieldDefault = .error problem ↔
      problem = .noResolverFound type field ∧
        ∀ tier reference, ¬Answers known history type field fieldDefault reference tier) ∧
    (∀ problem, (ofHistory known history).find type field fieldDefault = .error problem ↔
      problem = .noResolverFound type field ∧
        ∀ tier reference, ¬Answers known history type field fieldDefault reference tier) ∧
    (∀ reference, (∃ binding, holder.binding owner = .ok binding ∧ binding.reference = reference) ↔
      (∃ target, holder.resolver = some target ∧ target.IsUsable known ∧ reference = ⟨target⟩) ∨
      (holder.resolver = none ∧ holder.HasUsableDefault ∧
        ∃ tier, IsFirstAnswer known history owner holder.label holder.ownDefault tier reference)) ∧
    (∀ problem, holder.binding owner = .error problem ↔
      (∃ target, holder.resolver.or holder.defaultResolver = some target ∧
        Reference.check known target = .error problem) ∨
      (holder.resolver = none ∧ holder.HasUsableDefault ∧
        problem = .noResolverFound owner holder.label ∧
        ∀ tier reference,
          ¬Answers known history owner holder.label holder.ownDefault reference tier)) := by
  have knownHolder : holder.wiring.known = known := by rw [wired, known_ofHistory]
  have found : ∀ type field fieldDefault reference,
      (ofHistory known history).find type field fieldDefault = .ok reference ↔
        ∃ tier, IsFirstAnswer known history type field fieldDefault tier reference := by
    intro type field fieldDefault reference
    rw [find_eq_ok_iff]
    exact exists_congr fun tier => findWithTier_ofHistory_eq_ok_iff ..
  refine ⟨fun tier reference => findWithTier_ofHistory_eq_ok_iff .., found _ _ _,
    fun problem => findWithTier_ofHistory_eq_error_iff .., ?_, ?_, ?_⟩
  · intro problem
    rw [find_eq_error_iff, findWithTier_ofHistory_eq_error_iff]
  · intro reference
    rw [← found, ← wired, ← knownHolder, ← Field.reference_eq_ok_iff]
    constructor
    · rintro ⟨binding, bound, rfl⟩
      exact ((Field.binding_eq_ok_iff holder owner binding).mp bound).1
    · intro given
      exact ⟨⟨reference, holder.context⟩,
        (Field.binding_eq_ok_iff holder owner _).mpr ⟨given, rfl⟩, rfl⟩
  · intro problem
    rw [Field.binding_eq_error_iff, Field.reference_eq_error_iff, knownHolder, wired,
      find_eq_error_iff, findWithTier_ofHistory_eq_error_iff]

/-- An earlier class with the shorter name comes before a later class with the longer one; a text
that cannot be read registers nothing, and what is registered for another field does not count. -/
theorem findWithTier_of_two_classes :
    let known : KnownTargets :=
      [⟨"First", "resolvePosts"⟩, ⟨"Second", "resolveQueryPosts"⟩, ⟨"Second", "notes"⟩]
    let history : List Registration :=
      [.resolverClass "First", .callable "Query" "posts" "Second::none", .resolverClass "Second",
        .callable "Query" "notes" "Second::notes"]
    let holder := Field.plain ⟨"posts".toList, by decide⟩ (ofHistory known history)
    holder.wiring = ofHistory known history ∧
      IsFirstAnswer known history "Query" "posts" none .convention ⟨⟨"First", "resolvePosts"⟩⟩ := by
  intro known history holder
  have wired : holder.wiring = ofHistory known history := rfl
  have answers := findWithTier_ofHistory known history "Query" "posts" none holder wired "Query"
  exact ⟨wired, (answers.1 .convention ⟨⟨"First", "resolvePosts"⟩⟩).mp (by decide)⟩

end Wiring

end SchemaAssembly
