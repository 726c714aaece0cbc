/-
This file proves that the arguments of a field may be written in its compact definition or be
configured as a mapping, and that this makes no difference to what the field is defined as. The
two ways meet where an argument is defined: its type, be it read at once or kept as a text, and
its default, be it read as a constant or converted from JSON, are the same.
-/

import SchemaAssembly.Proofs.Field.Configuration
import SchemaAssembly.Proofs.Field.Encoding
import SchemaAssembly.Proofs.Grammar.ConstantText
import SchemaAssembly.Proofs.Grammar.Signature
import SchemaAssembly.Proofs.Grammar.TypeText

namespace SchemaAssembly

open Grammar

/-! ### Arguments in both forms -/

/-- The default of an argument in both forms: a JSON value that is not null and has a constant, and
a text without comments that is read as this constant. -/
structure WrittenDefault where
  value : Json
  text : String
  constant : Constant
  notNull : value ≠ .null
  converted : Constant.ofJson value = .ok constant
  read : Constant.parse text = .ok constant
  bare : IsBare text.toList

/-- An argument that can be written in a compact definition as well as configured. -/
structure WrittenArgument where
  name : Name
  type : TypeRef
  default? : Option WrittenDefault

namespace WrittenArgument

/-- The constant of the default, if there is a default. -/
def constant? (argument : WrittenArgument) : Option Constant :=
  argument.default?.map WrittenDefault.constant

/-- The argument as a part of a compact definition. -/
def inline (argument : WrittenArgument) : InlineArgument :=
  ⟨argument.name, argument.type, argument.constant?⟩

/-- The default behind an equals sign, if there is a default. -/
def defaultText : Option WrittenDefault → List Char
  | none => []
  | some given => ' ' :: '=' :: ' ' :: given.text.toList

/-- The text of an argument in a compact definition. -/
def text (argument : WrittenArgument) : List Char :=
  argument.name.letters ++
    ':' :: ' ' :: (argument.type.letters ++ defaultText argument.default?)

/-- The compact definition of a field with arguments, which are separated by commas. -/
def definition (name : Name) (arguments : List WrittenArgument) : String :=
  String.ofList (name.letters ++ '(' :: ([',', ' '].intercalate (arguments.map text) ++ [')']))

/-- The configuration of an argument: its type as a text, and its default if it has one. -/
def settings (argument : WrittenArgument) : List (String × Json) :=
  ("type", .text argument.type.text) ::
    argument.default?.toList.map fun given => ("defaultValue", given.value)

/-- The entry of an argument in a mapping of arguments. -/
def entry (argument : WrittenArgument) : String × Json :=
  (argument.name.text, .object argument.settings)

/-- The configuration of a field with a type. -/
def typeAlone (type : String) : FieldConfig :=
  .mapping (Keyed.ofList [("type", .text type)])

/-- The configuration of a field with a type and arguments. -/
def typeAndArguments (type : String) (arguments : List WrittenArgument) : FieldConfig :=
  .mapping (Keyed.ofList [("type", .text type), ("args", .object (arguments.map entry))])

/-! ### The compact definition is read -/

theorem laidBare_defaultText (default? : Option WrittenDefault) :
    LaidBare (InlineArgument.defaultTokens (default?.map WrittenDefault.constant))
      (defaultText default?) := by
  cases default? with
  | none => exact .empty
  | some given =>
    have laid := (Constant.parse_eq_ok_iff_laid.mp given.read).2
    exact ((given.bare.laidBare laid).space.mark .equals).space

theorem not_startsWord_defaultText (default? : Option WrittenDefault) :
    ¬StartsWord (defaultText default?) := by
  cases default? with
  | none => exact not_startsWord_nil
  | some given => exact not_startsWord_cons rfl _

theorem laidBare_text (argument : WrittenArgument) :
    LaidBare argument.inline.tokens argument.text := by
  have typed := argument.type.laidBare_letters.append (laidBare_defaultText argument.default?)
    (not_startsWord_defaultText argument.default?)
  exact (typed.space.mark .colon).name argument.name (not_startsWord_cons rfl _)

theorem laidBare_texts (arguments : List WrittenArgument) :
    LaidBare ((arguments.map inline).flatMap InlineArgument.tokens)
      ([',', ' '].intercalate (arguments.map text)) := by
  induction arguments with
  | nil => exact .empty
  | cons first others inductionHypothesis =>
    exact first.laidBare_text.intercalate inductionHypothesis

theorem isWritable_inline (argument : WrittenArgument) : argument.inline.IsWritable := by
  intro constant isDefault
  obtain ⟨given, -, rfl⟩ := Option.map_eq_some_iff.mp isDefault
  exact (Constant.parse_eq_ok_iff_laid.mp given.read).1

/-- The compact definition is read as the arguments of which it is made up. -/
theorem parse_definition (name : Name) {arguments : List WrittenArgument}
    (nonempty : arguments ≠ []) :
    Signature.parse (definition name arguments) = .ok ⟨name, arguments.map inline⟩ := by
  rw [Signature.parse_eq_ok_iff_laid, definition, String.toList_ofList]
  constructor
  · intro argument member
    obtain ⟨written, -, rfl⟩ := List.mem_map.mp member
    exact written.isWritable_inline
  · have closing := LaidBare.empty.mark .closeParenthesis
    have inside := (laidBare_texts arguments).append closing (not_startsWord_cons rfl _)
    have whole := (inside.mark .openParenthesis).name name (not_startsWord_cons rfl _)
    cases arguments with
    | nil => exact absurd rfl nonempty
    | cons first others => exact whole.laid

/-! ### The configuration is applied -/

/-- The argument that a compact definition gives. -/
def inlined (argument : WrittenArgument) : Argument :=
  ⟨argument.name.text, some (.settled argument.type), argument.constant?, none⟩

/-- The argument that a configuration gives. -/
def configured (argument : WrittenArgument) : Argument :=
  ⟨argument.name.text, some (.written argument.type.text), argument.constant?, none⟩

theorem applyEntry_defaultValue {value : Json} {constant : Constant} (notNull : value ≠ .null)
    (converted : Constant.ofJson value = .ok constant) (place : String) (argument : Argument) :
    argument.applyEntry place ("defaultValue", value) =
      .ok { argument with default? := some constant } := by
  cases value with
  | null => exact absurd rfl notNull
  | _ => simp only [Argument.applyEntry, converted]

/-- A new argument takes its type and its default from the configuration. -/
theorem ofConfig_settings (argument : WrittenArgument) (field : String) :
    Argument.ofConfig argument.name.text (.mapping (Keyed.ofList argument.settings)) field =
      .ok argument.configured := by
  obtain ⟨name, type, default?⟩ := argument
  rw [Argument.ofConfig_eq_ok_iff]
  cases default? with
  | none => rfl
  | some given =>
    have applied := applyEntry_defaultValue given.notNull given.converted
      (placeOfArgument name.text field) ⟨name.text, some (.written type.text), none, none⟩
    show Argument.applyEntries _ (Argument.bare name.text)
      [("type", .text type.text), ("defaultValue", given.value)] = _
    rw [Argument.applyEntries, Argument.applyEntry]
    dsimp only [Argument.bare]
    rw [Argument.applyEntries, applied]
    rfl

/-- An argument that is not there yet is put at the end. -/
theorem applyArgument_entry {field : Field} {argument : WrittenArgument}
    (fresh : argument.name.text ∉ field.arguments.keys) :
    field.applyArgument argument.entry = (field.putArgument argument.configured, []) := by
  have absent := Keyed.find?_eq_none_iff.mpr fresh
  rw [entry, Field.applyArgument_object,
    Field.configureArgument_of_find?_eq_none argument.name.isName_text absent, ofConfig_settings]
  rfl

/-- Arguments that are not there yet are put at the end, one after the other. -/
theorem applyAll_entries (arguments : List WrittenArgument) (field : Field)
    (fresh : (field.arguments.keys ++ arguments.map fun argument => argument.name.text).Nodup) :
    Field.applyAll Field.applyArgument field (arguments.map entry) =
      ({ field with arguments := field.arguments.insertAll (arguments.map configured) }, []) := by
  induction arguments generalizing field with
  | nil => rfl
  | cons first others inductionHypothesis =>
    rw [List.map_cons, List.append_cons] at fresh
    have absent : first.name.text ∉ field.arguments.keys := by
      intro present
      have before := (List.nodup_append.mp fresh).1
      exact (List.nodup_append.mp before).2.2 _ present _ List.mem_cons_self rfl
    have keys : (field.putArgument first.configured).arguments.keys =
        field.arguments.keys ++ [first.name.text] :=
      Keyed.keys_insert_of_not_mem field.arguments first.configured absent
    rw [List.map_cons, Field.applyAll_cons, applyArgument_entry absent,
      inductionHypothesis _ (keys ▸ fresh)]
    rfl

/-! ### The field in both forms -/

/-- The field with a type and the given arguments. -/
def fieldOf (name : Name) (definition type : String) (wiring : Wiring) (arguments : List Argument) :
    Field :=
  ⟨name, definition, Keyed.ofList arguments, some (.written type), none, none, none, ∅, wiring⟩

theorem nodup_text {arguments : List WrittenArgument} (distinct : (arguments.map name).Nodup) :
    (arguments.map fun argument => argument.name.text).Nodup := by
  have injective : ∀ first second : Name, first.text = second.text → first = second := by
    intro first second same
    rw [← Option.some.injEq, ← Name.ofText?_text first, same, Name.ofText?_text]
  rw [List.nodup_iff_pairwise_ne, List.pairwise_map] at distinct ⊢
  exact distinct.imp fun different same => different (injective _ _ same)

/-- Arguments with distinct names are kept in the order in which they are given. -/
theorem members_ofList_map (form : WrittenArgument → Argument)
    (named : ∀ argument, (form argument).name = argument.name.text)
    {arguments : List WrittenArgument} (distinct : (arguments.map name).Nodup) :
    (Keyed.ofList (arguments.map form) : Keyed Argument.name).members = arguments.map form := by
  refine Keyed.members_ofList_of_nodup ?_
  rw [List.map_map, show Argument.name ∘ form = fun argument => argument.name.text from
    funext named]
  exact nodup_text distinct

theorem make_definition (name : Name) (type : String) {arguments : List WrittenArgument}
    (nonempty : arguments ≠ []) (wiring : Wiring) :
    Field.make (definition name arguments) (typeAlone type) wiring =
      .ok (fieldOf name (definition name arguments) type wiring (arguments.map inlined)) := by
  refine Field.make_eq_ok_iff.mpr ⟨name, Keyed.ofList (arguments.map inlined), ?_, rfl⟩
  rw [Field.nameAndArguments, parse_definition name nonempty]
  dsimp only
  rw [List.map_map]
  rfl

theorem make_configuration (name : Name) (type : String) {arguments : List WrittenArgument}
    (distinct : (arguments.map WrittenArgument.name).Nodup) (wiring : Wiring) :
    Field.make name.text (typeAndArguments type arguments) wiring =
      .ok (fieldOf name name.text type wiring (arguments.map configured)) := by
  refine Field.make_eq_ok_iff.mpr ⟨name, ∅, ?_, ?_⟩
  · exact Field.nameAndArguments_text name
  · have entries : (Keyed.ofList (arguments.map entry) : Json.Settings).members =
        arguments.map entry := by
      refine Keyed.members_ofList_of_nodup ?_
      rw [List.map_map]
      exact nodup_text distinct
    have applied := applyAll_entries arguments
      { Field.unconfigured name.text name ∅ wiring with type? := some (.written type) }
      (nodup_text distinct)
    show Field.applyAll Field.applyEntry (Field.unconfigured name.text name ∅ wiring)
      [("type", .text type), ("args", .object (arguments.map entry))] = _
    rw [Field.applyAll_cons, Field.applyAll_cons, Field.applyAll_nil, Field.applyEntry,
      Field.applyEntry, Field.applyArguments, entries, applied]
    rfl

/-- Both forms of an argument have the same definition. -/
theorem toDefinition_configured (argument : WrittenArgument) (field : String) :
    argument.configured.toDefinition field = argument.inlined.toDefinition field := by
  rw [Argument.toDefinition, Argument.toDefinition, Argument.resolvedType, Argument.resolvedType,
    configured, inlined, ConfiguredType.resolve?, ConfiguredType.resolve?,
    TypeRef.resolve_written_text]
  rfl

end WrittenArgument

/-- Whether the arguments of a field are written in its definition or configured, the field is
made, has them in the order in which they are given, each with its type and its default, passes or
fails the same checks and has the same definition. -/
theorem Field.make_inline_or_configured (name : Name) (type : String)
    (arguments : List WrittenArgument) (nonempty : arguments ≠ [])
    (distinct : (arguments.map WrittenArgument.name).Nodup) (wiring : Wiring) :
    ∃ inline configured : Field,
      make (WrittenArgument.definition name arguments) (WrittenArgument.typeAlone type) wiring =
        .ok inline ∧
      make name.text (WrittenArgument.typeAndArguments type arguments) wiring = .ok configured ∧
      (∀ field ∈ [inline, configured],
        field.arguments.members.map (fun argument =>
          (argument.name, argument.resolvedType name.text, argument.default?)) =
        arguments.map fun argument =>
          (argument.name.text, .ok argument.type, argument.constant?)) ∧
      inline.validate = configured.validate ∧
      inline.toDefinition = configured.toDefinition := by
  let inline := WrittenArgument.fieldOf name (WrittenArgument.definition name arguments) type wiring
    (arguments.map WrittenArgument.inlined)
  let configured := WrittenArgument.fieldOf name name.text type wiring
    (arguments.map WrittenArgument.configured)
  have inlineMembers : inline.arguments.members = arguments.map WrittenArgument.inlined :=
    WrittenArgument.members_ofList_map _ (fun _ => rfl) distinct
  have configuredMembers :
      configured.arguments.members = arguments.map WrittenArgument.configured :=
    WrittenArgument.members_ofList_map _ (fun _ => rfl) distinct
  have sameDefinitions :
      configured.arguments.members.map (fun argument => argument.toDefinition inline.label) =
        inline.arguments.members.map fun argument => argument.toDefinition inline.label := by
    rw [inlineMembers, configuredMembers, List.map_map, List.map_map]
    exact List.map_congr_left fun argument _ => argument.toDefinition_configured inline.label
  refine ⟨inline, configured, WrittenArgument.make_definition name type nonempty wiring,
    WrittenArgument.make_configuration name type distinct wiring, ?_,
    (validate_congr inline name.text configured.arguments sameDefinitions).symm,
    (toDefinition_congr inline name.text configured.arguments sameDefinitions).symm⟩
  intro field member
  rw [List.mem_cons, List.mem_singleton] at member
  rcases member with rfl | rfl
  · rw [inlineMembers, List.map_map]
    rfl
  · rw [configuredMembers, List.map_map]
    refine List.map_congr_left fun argument _ => ?_
    have resolved :=
      argument.type.resolve_written_text (placeOfArgument argument.name.text name.text)
    exact Prod.ext rfl (Prod.ext resolved rfl)

theorem WrittenDefault.laidBare_ten : LaidBare [.int "10"] " 10".toList := by
  have spelled : Spells (.int "10") "10".toList :=
    ⟨rfl, [], "10".toList, rfl, Or.inl rfl, isDigits_iff.mpr (by decide)⟩
  exact (LaidBare.token spelled).space

theorem WrittenDefault.laidBare_titles :
    LaidBare (Constant.list [.text "title"]).tokens "[\"title\",]".toList := by
  have spelled : Spells (.text "title") (quotedBy escaped "title".toList) :=
    isTextLiteral_quotedBy readsBack_escaped _
  have closing := (LaidBare.empty.mark .closeBracket).comma
  exact ((LaidBare.token spelled).append closing (not_startsWord_cons rfl _)).mark .openBracket

/-- A number, spelled with a blank before it. -/
def WrittenDefault.ten : WrittenDefault where
  value := .number (.whole 10)
  text := " 10"
  constant := .int "10"
  notNull := nofun
  converted := rfl
  read := Constant.parse_eq_ok_iff_laid.mpr ⟨trivial, laidBare_ten.laid⟩
  bare := ⟨_, laidBare_ten⟩

/-- A list, spelled with a comma that means nothing. -/
def WrittenDefault.titles : WrittenDefault where
  value := .array [.text "title"]
  text := "[\"title\",]"
  constant := .list [.text "title"]
  notNull := nofun
  converted := rfl
  read := Constant.parse_eq_ok_iff_laid.mpr ⟨⟨trivial, trivial⟩, laidBare_titles.laid⟩
  bare := ⟨_, laidBare_titles⟩

/-- Arguments with these defaults, and one without a default. -/
def WrittenArgument.ofPosts : List WrittenArgument :=
  [⟨⟨"limit".toList, by decide⟩, .named ⟨"Int".toList, by decide⟩ false, some .ten⟩,
    ⟨⟨"sort".toList, by decide⟩, .list (.named ⟨"String".toList, by decide⟩ true) true,
      some .titles⟩,
    ⟨⟨"filter".toList, by decide⟩, .named ⟨"Filter".toList, by decide⟩ false, none⟩]

/-- The field fails in both forms in the same way if its own type is cut short. -/
theorem Field.make_inline_or_configured_posts :
    WrittenArgument.definition ⟨"posts".toList, by decide⟩ WrittenArgument.ofPosts =
        "posts(limit: Int =  10, sort: [String!]! = [\"title\",], filter: Filter)" ∧
      WrittenArgument.ofPosts ≠ [] ∧ (WrittenArgument.ofPosts.map WrittenArgument.name).Nodup ∧
      ∃ inline configured : Field,
        make (WrittenArgument.definition ⟨"posts".toList, by decide⟩ WrittenArgument.ofPosts)
          (WrittenArgument.typeAlone "[Post") (.start []) = .ok inline ∧
        make "posts" (WrittenArgument.typeAndArguments "[Post" WrittenArgument.ofPosts)
          (.start []) = .ok configured ∧
        inline.validate = configured.validate ∧
        inline.toDefinition = configured.toDefinition := by
  have nonempty : WrittenArgument.ofPosts ≠ [] := List.cons_ne_nil _ _
  have distinct : (WrittenArgument.ofPosts.map WrittenArgument.name).Nodup := by decide
  obtain ⟨inline, configured, madeInline, madeConfigured, -, sameChecks, sameDefinition⟩ :=
    make_inline_or_configured ⟨"posts".toList, by decide⟩ "[Post" WrittenArgument.ofPosts nonempty
      distinct (.start [])
  exact ⟨by decide +kernel, nonempty, distinct, inline, configured, madeInline, madeConfigured,
    sameChecks, sameDefinition⟩

end SchemaAssembly
