/-
This file defines the container of the library: members with distinct keys, kept in the order in
which the keys were first written. Writing a member under a key that is present replaces the
member in its place; erasing one leaves the others in their order. A mapping from keys to values
is the special case in which a member is a pair and its key the first component.
-/

namespace SchemaAssembly

/-- Members with pairwise distinct keys, in the order in which the keys were first written. -/
structure Keyed {α κ : Type} (key : α → κ) where
  members : List α
  distinct : (members.map key).Nodup

namespace Keyed

variable {α κ : Type} {key : α → κ}

theorem ext {first second : Keyed key} (equal : first.members = second.members) :
    first = second := by
  cases first
  cases second
  cases equal
  rfl

instance [DecidableEq α] : DecidableEq (Keyed key) := fun first second =>
  if equal : first.members = second.members then
    isTrue (ext equal)
  else
    isFalse fun same => equal (same ▸ rfl)

/-- The container without members. -/
def empty : Keyed key := ⟨[], List.nodup_nil⟩

instance : EmptyCollection (Keyed key) := ⟨empty⟩

instance : Inhabited (Keyed key) := ⟨empty⟩

/-- The keys, in order. -/
def keys (container : Keyed key) : List κ :=
  container.members.map key

/-- The number of members. -/
def size (container : Keyed key) : Nat :=
  container.members.length

/-- Whether there is no member. -/
def isEmpty (container : Keyed key) : Bool :=
  container.members.isEmpty

section Lookup

variable [DecidableEq κ]

/-- The member with the given key. -/
def find? (container : Keyed key) (wanted : κ) : Option α :=
  container.members.find? fun member => key member = wanted

/-- Whether some member has the given key. -/
def contains (container : Keyed key) (wanted : κ) : Bool :=
  container.keys.contains wanted

/-! ### Writing a member -/

/-- A list with `member` in the place of the first member that has its key, or at the end when
none has it. -/
def written (key : α → κ) (member : α) : List α → List α
  | [] => [member]
  | head :: rest =>
    if key head = key member then member :: rest else head :: written key member rest

/-- Writing under a key that is there leaves the keys as they are. -/
theorem map_written_of_mem (member : α) (members : List α)
    (present : key member ∈ members.map key) :
    (written key member members).map key = members.map key := by
  induction members with
  | nil => simp at present
  | cons head rest inductionHypothesis =>
    by_cases same : key head = key member
    · simp [written, same]
    · have inRest : key member ∈ rest.map key := by
        rcases List.mem_cons.mp present with equal | inRest
        · exact absurd equal.symm same
        · exact inRest
      simp [written, same, inductionHypothesis inRest]

/-- Writing under a new key puts it behind the others. -/
theorem map_written_of_not_mem (member : α) (members : List α)
    (absent : key member ∉ members.map key) :
    (written key member members).map key = members.map key ++ [key member] := by
  induction members with
  | nil => rfl
  | cons head rest inductionHypothesis =>
    rw [List.map_cons, List.mem_cons, not_or] at absent
    have other : ¬key head = key member := fun equal => absent.1 equal.symm
    simp [written, other, inductionHypothesis absent.2]

theorem nodup_map_written (member : α) (members : List α) (distinct : (members.map key).Nodup) :
    ((written key member members).map key).Nodup := by
  by_cases present : key member ∈ members.map key
  · rw [map_written_of_mem member members present]
    exact distinct
  · rw [map_written_of_not_mem member members present, List.nodup_append]
    refine ⟨distinct, List.nodup_cons.mpr ⟨by simp, List.nodup_nil⟩, ?_⟩
    intro inList isMember inSingle isLast
    rw [List.mem_singleton.mp isLast]
    exact fun equal => present (equal ▸ isMember)

/-- Writes a member: in the place of the member with the same key, else at the end. -/
def insert (container : Keyed key) (member : α) : Keyed key :=
  ⟨written key member container.members,
    nodup_map_written member container.members container.distinct⟩

/-- Writes several members, one after the other. -/
def insertAll (container : Keyed key) (added : List α) : Keyed key :=
  added.foldl insert container

/-- The members of a list, each key at its first place and with its last member. -/
def ofList (members : List α) : Keyed key :=
  empty.insertAll members

/-- Removes the member with the given key; the others keep their order. -/
def erase (container : Keyed key) (unwanted : κ) : Keyed key :=
  ⟨container.members.filter fun member => key member ≠ unwanted,
    (List.filter_sublist.map key).nodup container.distinct⟩

/-! ### Laws of the operations -/

theorem keys_insert_of_mem (container : Keyed key) (member : α)
    (present : key member ∈ container.keys) : (container.insert member).keys = container.keys :=
  map_written_of_mem member container.members present

theorem keys_insert_of_not_mem (container : Keyed key) (member : α)
    (absent : key member ∉ container.keys) :
    (container.insert member).keys = container.keys ++ [key member] :=
  map_written_of_not_mem member container.members absent

theorem contains_iff_mem_keys (container : Keyed key) (wanted : κ) :
    container.contains wanted = true ↔ wanted ∈ container.keys := by
  simp [contains]

theorem contains_eq_isSome_find? (container : Keyed key) (wanted : κ) :
    container.contains wanted = (container.find? wanted).isSome := by
  rw [Bool.eq_iff_iff, contains_iff_mem_keys, find?, List.find?_isSome]
  simp [keys]

/-- What is found under a key has this key. -/
theorem key_of_find?_eq_some {container : Keyed key} {wanted : κ} {member : α}
    (found : container.find? wanted = some member) : key member = wanted := by
  simpa using List.find?_some found

theorem find?_written_self (member : α) (members : List α) :
    (written key member members).find? (fun other => key other = key member) = some member := by
  induction members with
  | nil => simp [written]
  | cons head rest inductionHypothesis =>
    by_cases same : key head = key member
    · simp [written, same]
    · simp [written, same, inductionHypothesis]

/-- Writing does not change what is found under other keys. -/
theorem find?_written_other (member : α) (members : List α) (wanted : κ)
    (other : wanted ≠ key member) :
    (written key member members).find? (fun found => key found = wanted) =
      members.find? fun found => key found = wanted := by
  induction members with
  | nil => simp [written, other.symm]
  | cons head rest inductionHypothesis =>
    by_cases same : key head = key member
    · simp [written, same, other.symm]
    · simp [written, same, List.find?_cons, inductionHypothesis]

/-- What was written last under a key is found under it. -/
theorem find?_insert_self (container : Keyed key) (member : α) :
    (container.insert member).find? (key member) = some member :=
  find?_written_self member container.members

/-- Writing under one key leaves what is found under another. -/
theorem find?_insert_other (container : Keyed key) (member : α) (wanted : κ)
    (other : wanted ≠ key member) :
    (container.insert member).find? wanted = container.find? wanted :=
  find?_written_other member container.members wanted other

/-- An erased key is found no more. -/
theorem find?_erase_self (container : Keyed key) (unwanted : κ) :
    (container.erase unwanted).find? unwanted = none := by
  simp [erase, find?, List.find?_eq_none]

/-- Removing what is there makes the container smaller. -/
theorem size_erase_lt {container : Keyed key} {wanted : κ} {member : α}
    (found : container.find? wanted = some member) :
    (container.erase wanted).size < container.size := by
  have present : member ∈ container.members := List.mem_of_find?_eq_some found
  have removed : key member = wanted := key_of_find?_eq_some found
  exact List.length_filter_lt_length_iff_exists.mpr ⟨member, present, by simp [removed]⟩

end Lookup

/-! ### Mappings -/

/-- The value of a mapping under a key. -/
def get? {κ ν : Type} [DecidableEq κ] (mapping : Keyed (Prod.fst : κ × ν → κ)) (wanted : κ) :
    Option ν :=
  (mapping.find? wanted).map Prod.snd

/-- The mapping with `value` under `wanted`. -/
def set {κ ν : Type} [DecidableEq κ] (mapping : Keyed (Prod.fst : κ × ν → κ)) (wanted : κ)
    (value : ν) : Keyed (Prod.fst : κ × ν → κ) :=
  mapping.insert (wanted, value)

/-- The values of a mapping, in the order of the keys. -/
def values {κ ν : Type} (mapping : Keyed (Prod.fst : κ × ν → κ)) : List ν :=
  mapping.members.map Prod.snd

end Keyed

/-- A mapping from keys to values that remembers the order in which the keys were first written. -/
abbrev Mapping (κ ν : Type) := Keyed (Prod.fst : κ × ν → κ)

end SchemaAssembly
