/-
This file proves that the constant of a JSON value says what the value says. A value has one as
long as all keys in it, at every depth, are names. The constant mirrors the value part by part:
lists stand for arrays, objects for objects with the same keys in the same order, and a number is
written as the value prints it, with its kind. From that the value can be told again, as far as its
numbers can be told from their texts, and the constant is one of the language, so it can be written
and read back.
-/

import SchemaAssembly.Proofs.Json.NumberText

namespace SchemaAssembly

open Grammar

/-! ### Values -/

namespace Json

mutual

/-- The keys of all objects in a value, in the order in which they stand. -/
def allKeys : Json → List String
  | .array items => itemKeys items
  | .object members => memberKeys members
  | _ => []

/-- The keys in the items of an array. -/
def itemKeys : List Json → List String
  | [] => []
  | head :: rest => head.allKeys ++ itemKeys rest

/-- The keys of the members of an object, each followed by the keys in its value. -/
def memberKeys : List (String × Json) → List String
  | [] => []
  | (key, head) :: rest => key :: (head.allKeys ++ memberKeys rest)

end

/-- Whether two numbers are the same as printed: equal whole numbers, or doubles that are printed
alike. -/
def Number.IsAlike : Number → Number → Prop
  | .whole first, .whole second => first = second
  | .double first, .double second => text (.double first) = text (.double second)
  | _, _ => False

mutual

/-- Whether two values are the same with their numbers as printed, with the same keys in the same
order. -/
def IsAlike : Json → Json → Prop
  | .null, .null => True
  | .boolean first, .boolean second => first = second
  | .number first, .number second => first.IsAlike second
  | .text first, .text second => first = second
  | .array first, .array second => ItemsAreAlike first second
  | .object first, .object second => MembersAreAlike first second
  | _, _ => False

/-- Whether two arrays have the same items. -/
def ItemsAreAlike : List Json → List Json → Prop
  | [], [] => True
  | first :: firstRest, second :: secondRest =>
    first.IsAlike second ∧ ItemsAreAlike firstRest secondRest
  | _, _ => False

/-- Whether two objects have the same members. -/
def MembersAreAlike : List (String × Json) → List (String × Json) → Prop
  | [], [] => True
  | (firstKey, first) :: firstRest, (secondKey, second) :: secondRest =>
    firstKey = secondKey ∧ first.IsAlike second ∧ MembersAreAlike firstRest secondRest
  | _, _ => False

end

namespace Number

/-- Two numbers are the same as printed exactly when they are printed alike: the text tells the
kind, and the text of a whole number tells the number. -/
theorem isAlike_iff_text_eq {first second : Number} :
    first.IsAlike second ↔ first.text = second.text := by
  constructor
  · intro alike
    match first, second with
    | .whole _, .whole _ => exact congrArg (fun value => text (.whole value)) alike
    | .double _, .double _ => exact alike
  · intro same
    have sameKind : first.isDouble = second.isDouble := by
      rw [← any_isFloatMark_text, same, any_isFloatMark_text]
    match first, second with
    | .whole _, .whole _ => exact eq_of_text_whole same
    | .double _, .double _ => exact same
    | .whole _, .double _ => cases sameKind
    | .double _, .whole _ => cases sameKind

end Number

end Json

namespace Constant

/-! ### What a constant says -/

/-- Whether a constant is a number as it is printed, of the same kind. -/
def IsPrinted (number : Json.Number) : Constant → Prop
  | .int digits => number.isDouble = false ∧ number.text = digits
  | .float digits => number.isDouble = true ∧ number.text = digits
  | _ => False

mutual

/-- Whether a constant says the same as a value: it is nested in the same way, with the same texts,
the same keys in the same order, and each number as it is printed. -/
def Mirrors : Json → Constant → Prop
  | .null, .null => True
  | .boolean value, .boolean given => value = given
  | .number number, constant => constant.IsPrinted number
  | .text content, .text given => content = given
  | .array items, .list constants => ItemsMirror items constants
  | .object members, .object constants => MembersMirror members constants
  | _, _ => False

/-- Whether the items of a list say the same as those of an array. -/
def ItemsMirror : List Json → List Constant → Prop
  | [], [] => True
  | item :: items, constant :: constants => Mirrors item constant ∧ ItemsMirror items constants
  | _, _ => False

/-- Whether the members of a constant object say the same as those of an object. -/
def MembersMirror : List (String × Json) → List (Name × Constant) → Prop
  | [], [] => True
  | (key, value) :: members, (name, constant) :: constants =>
    key = name.text ∧ Mirrors value constant ∧ MembersMirror members constants
  | _, _ => False

end

/-- A number is converted to the constant that prints it. -/
theorem isPrinted_ofNumber (number : Json.Number) :
    (if number.isDouble then float number.text else int number.text).IsPrinted number := by
  cases kind : number.isDouble with
  | false => exact ⟨kind, rfl⟩
  | true => exact ⟨kind, rfl⟩

theorem IsPrinted.eq {number : Json.Number} {constant : Constant}
    (printed : constant.IsPrinted number) :
    (if number.isDouble then float number.text else int number.text) = constant := by
  match constant with
  | .int digits =>
    obtain ⟨kind, rfl⟩ := printed
    rw [kind, if_neg Bool.false_ne_true]
  | .float digits =>
    obtain ⟨kind, rfl⟩ := printed
    rw [kind, if_pos rfl]

theorem map_eq_ok_iff {inner outer : Type} {result : Except String inner} {wrap : inner → outer}
    {final : outer} :
    result.map wrap = .ok final ↔ ∃ value, result = .ok value ∧ wrap value = final := by
  cases result <;> simp [Except.map]

mutual

/-- The constant of a value is the one that says the same. -/
theorem ofJson_eq_ok_iff {value : Json} {constant : Constant} :
    ofJson value = .ok constant ↔ Mirrors value constant := by
  cases value with
  | null => cases constant <;> simp [ofJson, Mirrors]
  | boolean value => cases constant <;> simp [ofJson, Mirrors]
  | text content => cases constant <;> simp [ofJson, Mirrors]
  | number number =>
    rw [ofJson, Mirrors, Except.ok.injEq]
    exact ⟨fun same => same ▸ isPrinted_ofNumber number, IsPrinted.eq⟩
  | array items =>
    rw [ofJson, map_eq_ok_iff]
    constructor
    · rintro ⟨constants, inside, rfl⟩
      exact ofItems_eq_ok_iff.mp inside
    · intro mirrors
      match constant with
      | .list constants => exact ⟨constants, ofItems_eq_ok_iff.mpr mirrors, rfl⟩
  | object members =>
    rw [ofJson, map_eq_ok_iff]
    constructor
    · rintro ⟨constants, inside, rfl⟩
      exact ofMembers_eq_ok_iff.mp inside
    · intro mirrors
      match constant with
      | .object constants => exact ⟨constants, ofMembers_eq_ok_iff.mpr mirrors, rfl⟩

/-- Items are converted one by one. -/
theorem ofItems_eq_ok_iff {items : List Json} {constants : List Constant} :
    ofItems items = .ok constants ↔ ItemsMirror items constants := by
  cases items with
  | nil => cases constants <;> simp [ofItems, ItemsMirror]
  | cons head rest =>
    rw [ofItems]
    constructor
    · intro converted
      cases first : ofJson head with
      | error key => rw [first] at converted; cases converted
      | ok constant =>
        rw [first] at converted
        obtain ⟨others, convertedRest, rfl⟩ := map_eq_ok_iff.mp converted
        exact ⟨ofJson_eq_ok_iff.mp first, ofItems_eq_ok_iff.mp convertedRest⟩
    · intro mirrors
      match constants with
      | constant :: others =>
        rw [ofJson_eq_ok_iff.mpr mirrors.1]
        exact map_eq_ok_iff.mpr ⟨others, ofItems_eq_ok_iff.mpr mirrors.2, rfl⟩

theorem ofMembers_eq_ok_iff {members : List (String × Json)}
    {constants : List (Name × Constant)} :
    ofMembers members = .ok constants ↔ MembersMirror members constants := by
  match members with
  | [] => cases constants <;> simp [ofMembers, MembersMirror]
  | (key, head) :: rest =>
    rw [ofMembers]
    constructor
    · intro converted
      cases named : Name.ofText? key with
      | none => rw [named] at converted; cases converted
      | some name =>
        cases first : ofJson head with
        | error inner => rw [named, first] at converted; cases converted
        | ok constant =>
          rw [named, first] at converted
          obtain ⟨others, convertedRest, rfl⟩ := map_eq_ok_iff.mp converted
          exact ⟨(Name.text_of_ofText?_eq_some named).symm, ofJson_eq_ok_iff.mp first,
            ofMembers_eq_ok_iff.mp convertedRest⟩
    · intro mirrors
      match constants with
      | (name, constant) :: others =>
        obtain ⟨rfl, first, mirrorsRest⟩ := mirrors
        rw [Name.ofText?_text, ofJson_eq_ok_iff.mpr first]
        exact map_eq_ok_iff.mpr ⟨others, ofMembers_eq_ok_iff.mpr mirrorsRest, rfl⟩

end

/-! ### Values without a constant -/

/-- The key for which something has been refused. -/
def refusedKey {result : Type} : Except String result → Option String
  | .error key => some key
  | .ok _ => none

theorem refusedKey_map {inner outer : Type} (result : Except String inner)
    (wrap : inner → outer) : refusedKey (result.map wrap) = refusedKey result := by
  cases result <;> rfl

/-- No key is refused where there is a constant, and nowhere else. -/
theorem refusedKey_eq_none_iff {inner : Type} {result : Except String inner} :
    refusedKey result = none ↔ ∃ value, result = .ok value := by
  cases result <;> simp [refusedKey]

mutual

/-- The key for which a value is refused is the first in it that is no name. -/
theorem refusedKey_ofJson (value : Json) :
    refusedKey (ofJson value) = value.allKeys.find? (!isName ·) := by
  cases value with
  | array items =>
    rw [ofJson, refusedKey_map]
    exact refusedKey_ofItems items
  | object members =>
    rw [ofJson, refusedKey_map]
    exact refusedKey_ofMembers members
  | _ => rfl

theorem refusedKey_ofItems (items : List Json) :
    refusedKey (ofItems items) = (Json.itemKeys items).find? (!isName ·) := by
  cases items with
  | nil => rfl
  | cons head rest =>
    rw [ofItems, Json.itemKeys, List.find?_append, ← refusedKey_ofJson head,
      ← refusedKey_ofItems rest]
    cases ofJson head with
    | error key => rfl
    | ok constant => exact refusedKey_map _ _

theorem refusedKey_ofMembers (members : List (String × Json)) :
    refusedKey (ofMembers members) = (Json.memberKeys members).find? (!isName ·) := by
  match members with
  | [] => rfl
  | (key, head) :: rest =>
    have isNamed : (Name.ofText? key).isSome = isName key := Name.isSome_ofText? key
    rw [ofMembers, Json.memberKeys, List.find?_cons, List.find?_append, ← isNamed,
      ← refusedKey_ofJson head, ← refusedKey_ofMembers rest]
    cases Name.ofText? key with
    | none => rfl
    | some name =>
      cases ofJson head with
      | error inner => rfl
      | ok constant => exact refusedKey_map _ _

end

/-- A value is converted if all its keys, however deep, are names. -/
theorem exists_ofJson_eq_ok_iff {value : Json} :
    (∃ constant, ofJson value = .ok constant) ↔ ∀ key ∈ value.allKeys, isName key = true := by
  rw [← refusedKey_eq_none_iff, refusedKey_ofJson, List.find?_eq_none]
  simp only [Bool.not_eq_true', Bool.not_eq_false]

/-! ### Values with the same constant -/

/-- What prints one number prints exactly those that are alike. -/
theorem IsPrinted.isPrinted_iff {first second : Json.Number} {constant : Constant}
    (printed : constant.IsPrinted first) :
    constant.IsPrinted second ↔ first.IsAlike second := by
  rw [Json.Number.isAlike_iff_text_eq]
  have sameKind (same : first.text = second.text) : second.isDouble = first.isDouble := by
    rw [← Json.Number.any_isFloatMark_text, ← same, Json.Number.any_isFloatMark_text]
  match constant with
  | .int digits =>
    obtain ⟨kind, rfl⟩ := printed
    exact ⟨fun other => other.2.symm, fun same => ⟨(sameKind same).trans kind, same.symm⟩⟩
  | .float digits =>
    obtain ⟨kind, rfl⟩ := printed
    exact ⟨fun other => other.2.symm, fun same => ⟨(sameKind same).trans kind, same.symm⟩⟩

mutual

/-- What says the same as a value says the same as every value like it, and as no other. -/
theorem mirrors_iff_isAlike {value other : Json} {constant : Constant}
    (mirrors : Mirrors value constant) : Mirrors other constant ↔ value.IsAlike other := by
  cases value with
  | null =>
    cases constant with
    | null => cases other <;> simp [Mirrors, Json.IsAlike, IsPrinted]
    | _ => exact mirrors.elim
  | boolean value =>
    cases constant with
    | boolean given =>
      cases mirrors
      cases other <;> simp [Mirrors, Json.IsAlike, IsPrinted, eq_comm]
    | _ => exact mirrors.elim
  | text content =>
    cases constant with
    | text given =>
      cases mirrors
      cases other <;> simp [Mirrors, Json.IsAlike, IsPrinted, eq_comm]
    | _ => exact mirrors.elim
  | number number =>
    cases other with
    | number otherNumber => exact IsPrinted.isPrinted_iff mirrors
    | _ => cases constant <;> simp_all [Mirrors, Json.IsAlike, IsPrinted]
  | array items =>
    cases constant with
    | list constants =>
      cases other with
      | array others => exact itemsMirror_iff_itemsAreAlike mirrors
      | _ => simp [Mirrors, Json.IsAlike, IsPrinted]
    | _ => exact mirrors.elim
  | object members =>
    cases constant with
    | object constants =>
      cases other with
      | object others => exact membersMirror_iff_membersAreAlike mirrors
      | _ => simp [Mirrors, Json.IsAlike, IsPrinted]
    | _ => exact mirrors.elim

theorem itemsMirror_iff_itemsAreAlike {items others : List Json} {constants : List Constant}
    (mirrors : ItemsMirror items constants) :
    ItemsMirror others constants ↔ Json.ItemsAreAlike items others := by
  match items, constants with
  | [], [] => cases others <;> simp [ItemsMirror, Json.ItemsAreAlike]
  | item :: rest, constant :: constants =>
    obtain ⟨first, mirrorsRest⟩ := mirrors
    match others with
    | [] => exact Iff.rfl
    | other :: otherRest =>
      exact and_congr (mirrors_iff_isAlike first) (itemsMirror_iff_itemsAreAlike mirrorsRest)

theorem membersMirror_iff_membersAreAlike {members others : List (String × Json)}
    {constants : List (Name × Constant)} (mirrors : MembersMirror members constants) :
    MembersMirror others constants ↔ Json.MembersAreAlike members others := by
  match members, constants with
  | [], [] => cases others <;> simp [MembersMirror, Json.MembersAreAlike]
  | (key, value) :: rest, (name, constant) :: constants =>
    obtain ⟨rfl, first, mirrorsRest⟩ := mirrors
    match others with
    | [] => exact Iff.rfl
    | (otherKey, other) :: otherRest =>
      exact and_congr eq_comm
        (and_congr (mirrors_iff_isAlike first) (membersMirror_iff_membersAreAlike mirrorsRest))

end

/-! ### Constants of the language -/

/-- A printed number can be written, and is a numeral. -/
theorem IsPrinted.isProper {number : Json.Number} {constant : Constant}
    (printed : constant.IsPrinted number) : constant.IsProper := by
  match number, constant with
  | .whole value, .int digits =>
    obtain ⟨-, rfl⟩ := printed
    exact ⟨trivial, List.forall_mem_singleton.mpr (Json.Number.isWhole_text value)⟩
  | .double value, .float digits =>
    obtain ⟨-, rfl⟩ := printed
    exact ⟨trivial, List.forall_mem_singleton.mpr (Json.Number.isFloat_text value)⟩

theorem forall_mem_enclosed {property : Token → Prop} {first last : Token} {inside : List Token}
    (atFirst : property first) (atLast : property last)
    (atInside : ∀ token ∈ inside, property token) :
    ∀ token ∈ first :: (inside ++ [last]), property token :=
  List.forall_mem_cons.mpr
    ⟨atFirst, List.forall_mem_append.mpr ⟨atInside, List.forall_mem_singleton.mpr atLast⟩⟩

mutual

/-- What says the same as a value is a constant of the language: it holds no member of an
enumeration at all, and its numbers are those that are printed. -/
theorem isProper_of_mirrors {value : Json} {constant : Constant}
    (mirrors : Mirrors value constant) : constant.IsProper := by
  match value, constant with
  | .null, .null => exact ⟨trivial, List.forall_mem_singleton.mpr trivial⟩
  | .boolean _, .boolean true => exact ⟨trivial, List.forall_mem_singleton.mpr trivial⟩
  | .boolean _, .boolean false => exact ⟨trivial, List.forall_mem_singleton.mpr trivial⟩
  | .number _, _ => exact IsPrinted.isProper mirrors
  | .text _, .text _ => exact ⟨trivial, List.forall_mem_singleton.mpr trivial⟩
  | .array _, .list _ =>
    obtain ⟨writable, numerals⟩ := isProper_of_itemsMirror mirrors
    exact ⟨writable, forall_mem_enclosed trivial trivial numerals⟩
  | .object _, .object _ =>
    obtain ⟨writable, numerals⟩ := isProper_of_membersMirror mirrors
    exact ⟨writable, forall_mem_enclosed trivial trivial numerals⟩

theorem isProper_of_itemsMirror {items : List Json} {constants : List Constant}
    (mirrors : ItemsMirror items constants) :
    ItemsAreWritable constants ∧ ∀ token ∈ itemTokens constants, token.HoldsNumeral := by
  match items, constants with
  | [], [] => exact ⟨trivial, List.forall_mem_nil _⟩
  | _ :: _, _ :: _ =>
    obtain ⟨first, others⟩ := mirrors
    have head := isProper_of_mirrors first
    have rest := isProper_of_itemsMirror others
    exact ⟨⟨head.writable, rest.1⟩, List.forall_mem_append.mpr ⟨head.numerals, rest.2⟩⟩

theorem isProper_of_membersMirror {members : List (String × Json)}
    {constants : List (Name × Constant)} (mirrors : MembersMirror members constants) :
    MembersAreWritable constants ∧ ∀ token ∈ memberTokens constants, token.HoldsNumeral := by
  match members, constants with
  | [], [] => exact ⟨trivial, List.forall_mem_nil _⟩
  | (_, _) :: _, (_, _) :: _ =>
    obtain ⟨-, first, others⟩ := mirrors
    have head := isProper_of_mirrors first
    have rest := isProper_of_membersMirror others
    refine ⟨⟨head.writable, rest.1⟩, List.forall_mem_cons.mpr ⟨trivial, ?_⟩⟩
    refine List.forall_mem_cons.mpr ⟨trivial, ?_⟩
    exact List.forall_mem_append.mpr ⟨head.numerals, rest.2⟩

end

/-- A value has a constant exactly if all keys in it are names. The constant says the same as the
value, and no value that differs from it, other than in how numbers are kept that are printed
alike, has the same constant. Written on one line, with texts between quotes, the constant is read
back as it is. -/
theorem ofJson_isFaithful (value : Json) :
    ((∃ constant, ofJson value = .ok constant) ↔ ∀ key ∈ value.allKeys, isName key = true) ∧
    ∀ constant, ofJson value = .ok constant →
      Mirrors value constant ∧
      (∀ other, ofJson other = .ok constant ↔ value.IsAlike other) ∧
      parse (String.ofList (constant.line escaped)) = .ok constant := by
  refine ⟨exists_ofJson_eq_ok_iff, fun constant converted => ?_⟩
  have mirrors := ofJson_eq_ok_iff.mp converted
  refine ⟨mirrors, fun other => ?_, parse_line readsBack_escaped (isProper_of_mirrors mirrors)⟩
  rw [ofJson_eq_ok_iff, mirrors_iff_isAlike mirrors]

/-- Texts that are spelled like words and numbers, the largest whole number of 64 bits and a double
that is printed with an exponent, nested in an array and an object. -/
theorem ofJson_isFaithful_nested :
    let large : Double := ⟨true, ⟨4503599627370496, 48⟩⟩
    let value : Json := .object
      [("sizes", .array [.number (.whole 18446744073709551615), .number (.double large)]),
        ("words", .object [("_", .text "null"), ("n", .text "1"), ("q", .text "\"\\\n")])]
    let constant : Constant := .object
      [(⟨"sizes".toList, rfl⟩,
          .list [.int "18446744073709551615", .float "-1.2676506002282294e+30"]),
        (⟨"words".toList, rfl⟩, .object [(⟨"_".toList, rfl⟩, .text "null"),
          (⟨"n".toList, rfl⟩, .text "1"), (⟨"q".toList, rfl⟩, .text "\"\\\n")])]
    ofJson value = .ok constant ∧
      parse (String.ofList (constant.line escaped)) = .ok constant := by
  intro large value constant
  have converted : ofJson value = .ok constant := by
    refine ofJson_eq_ok_iff.mpr ⟨rfl, ⟨⟨rfl, ?_⟩, ⟨rfl, ?_⟩, trivial⟩, rfl, ?_, trivial⟩
    · decide +kernel
    · decide +kernel
    · exact ⟨rfl, rfl, rfl, rfl, rfl, rfl, trivial⟩
  exact ⟨converted, ((ofJson_isFaithful value).2 constant converted).2.2⟩

end Constant

end SchemaAssembly
