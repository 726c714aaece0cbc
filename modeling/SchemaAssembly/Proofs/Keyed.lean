/-
This file proves what a container holds after many writes. A key stands where it was written
first; under it is found what was written last; this determines a container; and one that is
written again, member by member, is the same container.
-/

import SchemaAssembly.Keyed

namespace SchemaAssembly.Keyed

variable {α κ : Type} {key : α → κ} [DecidableEq κ]

/-! ### Keys and members -/

/-- Each member is found under its key. -/
theorem find?_key_of_mem {container : Keyed key} {member : α}
    (present : member ∈ container.members) : container.find? (key member) = some member := by
  obtain ⟨members, distinct⟩ := container
  show members.find? (fun other => key other = key member) = some member
  replace present : member ∈ members := present
  induction members with
  | nil => cases present
  | cons head rest inductionHypothesis =>
    rw [List.map_cons, List.nodup_cons] at distinct
    rcases List.mem_cons.mp present with rfl | inRest
    · exact List.find?_cons_of_pos (decide_eq_true rfl)
    · have other : key head ≠ key member := fun same =>
        distinct.1 (same ▸ List.mem_map_of_mem inRest)
      rw [List.find?_cons_of_neg (by simpa using other)]
      exact inductionHypothesis distinct.2 inRest

/-- Members with the same key are the same member. -/
theorem eq_of_key_eq {container : Keyed key} {first second : α}
    (firstPresent : first ∈ container.members) (secondPresent : second ∈ container.members)
    (same : key first = key second) : first = second := by
  rw [← Option.some.injEq, ← find?_key_of_mem firstPresent, ← find?_key_of_mem secondPresent, same]

theorem find?_eq_none_iff {container : Keyed key} {wanted : κ} :
    container.find? wanted = none ↔ wanted ∉ container.keys := by
  rw [← contains_iff_mem_keys, contains_eq_isSome_find?, Option.not_isSome_iff_eq_none]

/-- What is found under a key is the one member that has it. -/
theorem find?_eq_some_iff {container : Keyed key} {wanted : κ} {member : α} :
    container.find? wanted = some member ↔ member ∈ container.members ∧ key member = wanted := by
  constructor
  · intro found
    exact ⟨List.mem_of_find?_eq_some found, key_of_find?_eq_some found⟩
  · rintro ⟨present, rfl⟩
    exact find?_key_of_mem present

/-- A container is determined by its keys and by what is found under them. -/
theorem ext_find? {first second : Keyed key} (sameKeys : first.keys = second.keys)
    (sameFound : ∀ wanted, first.find? wanted = second.find? wanted) : first = second := by
  have found : ∀ container : Keyed key,
      container.members.map some = container.keys.map container.find? := by
    intro container
    rw [keys, List.map_map]
    exact List.map_congr_left fun member present => (find?_key_of_mem present).symm
  refine ext ((List.map_inj_right fun _ _ => Option.some.inj).mp ?_)
  rw [found first, found second, sameKeys, funext sameFound]

/-! ### One write -/

theorem keys_insert (container : Keyed key) (member : α) :
    (container.insert member).keys =
      if key member ∈ container.keys then container.keys else container.keys ++ [key member] := by
  split
  · next present => exact keys_insert_of_mem container member present
  · next absent => exact keys_insert_of_not_mem container member absent

theorem find?_insert (container : Keyed key) (member : α) (wanted : κ) :
    (container.insert member).find? wanted =
      if key member = wanted then some member else container.find? wanted := by
  split
  · next same =>
    rw [← same]
    exact find?_insert_self container member
  · next other =>
    exact find?_insert_other container member wanted fun equal => other equal.symm

/-- A write brings no member but the one that is written. -/
theorem mem_of_mem_insert {container : Keyed key} {written member : α}
    (present : member ∈ (container.insert written).members) :
    member = written ∨ member ∈ container.members := by
  have found := find?_key_of_mem present
  rw [find?_insert] at found
  split at found
  · exact Or.inl (Option.some.inj found).symm
  · exact Or.inr (List.mem_of_find?_eq_some found)

/-- An erased key is found no more; what is found under other keys stays. -/
theorem find?_erase (container : Keyed key) (unwanted wanted : κ) :
    (container.erase unwanted).find? wanted =
      if unwanted = wanted then none else container.find? wanted := by
  split
  · next same =>
    rw [← same]
    exact find?_erase_self container unwanted
  · next other =>
    rw [erase, find?, List.find?_filter, find?]
    refine congrArg (List.find? · container.members) (funext fun member => ?_)
    by_cases isWanted : key member = wanted
    · simp [isWanted, Ne.symm other]
    · simp [isWanted]

theorem erase_erase (container : Keyed key) (first second : κ) :
    (container.erase first).erase second = (container.erase second).erase first := by
  refine ext ?_
  show (container.members.filter _).filter _ = (container.members.filter _).filter _
  rw [List.filter_filter, List.filter_filter]
  exact List.filter_congr fun _ _ => Bool.and_comm _ _

/-- A member whose key is new goes to the end. -/
theorem members_insert_of_not_mem (container : Keyed key) (member : α)
    (absent : key member ∉ container.keys) :
    (container.insert member).members = container.members ++ [member] := by
  obtain ⟨members, distinct⟩ := container
  show written key member members = members ++ [member]
  replace absent : key member ∉ members.map key := absent
  clear distinct
  induction members with
  | nil => rfl
  | cons head rest inductionHypothesis =>
    rw [List.map_cons, List.mem_cons, not_or] at absent
    have other : ¬key head = key member := fun equal => absent.1 equal.symm
    rw [written, if_neg other, inductionHypothesis absent.2, List.cons_append]

/-! ### Many writes -/

theorem insertAll_cons (container : Keyed key) (first : α) (others : List α) :
    container.insertAll (first :: others) = (container.insert first).insertAll others := rfl

theorem insertAll_append (container : Keyed key) (first second : List α) :
    container.insertAll (first ++ second) = (container.insertAll first).insertAll second :=
  List.foldl_append

/-- A key that is written several times stays where it came first, after those that were there
before. -/
theorem keys_insertAll (container : Keyed key) (added : List α) :
    (container.insertAll added).keys =
      container.keys ++
        ((added.map key).filter fun wanted => wanted ∉ container.keys).eraseDups := by
  induction added generalizing container with
  | nil => exact (List.append_nil _).symm
  | cons first others inductionHypothesis =>
    rw [insertAll_cons, inductionHypothesis, keys_insert, List.map_cons]
    split
    · next present => rw [List.filter_cons_of_neg (by simpa using present)]
    · next absent =>
      rw [List.filter_cons_of_pos (by simpa using absent), List.eraseDups_cons, List.filter_filter,
        List.append_assoc, List.singleton_append]
      congr 3
      refine List.filter_congr fun wanted _ => ?_
      rw [Bool.eq_iff_iff, Bool.and_eq_true]
      simp [and_comm]

/-- Under a key is found the member that was written last under it, if one was, else the member
that was there. -/
theorem find?_insertAll (container : Keyed key) (added : List α) (wanted : κ) :
    (container.insertAll added).find? wanted =
      (added.reverse.find? fun member => key member = wanted).or (container.find? wanted) := by
  induction added generalizing container with
  | nil => rfl
  | cons first others inductionHypothesis =>
    rw [insertAll_cons, inductionHypothesis, find?_insert, List.reverse_cons, List.find?_append,
      Option.or_assoc]
    congr 1
    by_cases same : key first = wanted
    · simp [same]
    · simp [same]

/-- Writes bring no members but those that are written. -/
theorem mem_of_mem_insertAll {container : Keyed key} {added : List α} {member : α}
    (present : member ∈ (container.insertAll added).members) :
    member ∈ added ∨ member ∈ container.members := by
  have found := find?_key_of_mem present
  rw [find?_insertAll, Option.or_eq_some_iff] at found
  rcases found with written | ⟨_, kept⟩
  · exact Or.inl (List.mem_reverse.mp (List.mem_of_find?_eq_some written))
  · exact Or.inr (List.mem_of_find?_eq_some kept)

theorem mem_of_mem_ofList {members : List α} {member : α}
    (present : member ∈ (ofList members : Keyed key).members) : member ∈ members :=
  (mem_of_mem_insertAll present).resolve_right List.not_mem_nil

/-- Members with new keys, all different, go to the end as they are. -/
theorem members_insertAll_of_nodup (container : Keyed key) (added : List α)
    (distinct : (container.keys ++ added.map key).Nodup) :
    (container.insertAll added).members = container.members ++ added := by
  induction added generalizing container with
  | nil => exact (List.append_nil _).symm
  | cons first others inductionHypothesis =>
    rw [List.map_cons, List.append_cons] at distinct
    have absent : key first ∉ container.keys := by
      intro present
      have prefixDistinct := (List.nodup_append.mp distinct).1
      exact (List.nodup_append.mp prefixDistinct).2.2 _ present _ List.mem_cons_self rfl
    rw [insertAll_cons, inductionHypothesis, members_insert_of_not_mem _ _ absent,
      List.append_assoc, List.singleton_append]
    rw [keys_insert_of_not_mem _ _ absent]
    exact distinct

/-- Members with keys that are all different are kept as they are. -/
theorem members_ofList_of_nodup {members : List α} (distinct : (members.map key).Nodup) :
    (ofList members : Keyed key).members = members :=
  members_insertAll_of_nodup empty members distinct

/-- A container that is written again, member by member, is the same container. -/
theorem ofList_members (container : Keyed key) : ofList container.members = container :=
  ext (members_insertAll_of_nodup empty container.members container.distinct)

theorem keys_ofList (members : List α) :
    (ofList members : Keyed key).keys = (members.map key).eraseDups := by
  have allNew : ((members.map key).filter fun wanted => wanted ∉ (empty : Keyed key).keys) =
      members.map key :=
    List.filter_eq_self.mpr fun wanted _ => decide_eq_true List.not_mem_nil
  rw [ofList, keys_insertAll, allNew]
  rfl

theorem find?_ofList (members : List α) (wanted : κ) :
    (ofList members : Keyed key).find? wanted =
      members.reverse.find? fun member => key member = wanted := by
  rw [ofList, find?_insertAll]
  exact Option.or_none

/-- What is found among the members of two lists is found among the later ones, if it is there. -/
theorem find?_ofList_append (first second : List α) (wanted : κ) :
    (ofList (first ++ second) : Keyed key).find? wanted =
      ((ofList second : Keyed key).find? wanted).or ((ofList first : Keyed key).find? wanted) := by
  rw [find?_ofList, find?_ofList, find?_ofList, List.reverse_append, List.find?_append]

theorem mem_keys_ofList {members : List α} {wanted : κ} :
    wanted ∈ (ofList members : Keyed key).keys ↔ wanted ∈ members.map key := by
  rw [keys_ofList, List.mem_eraseDups]

/-- The members of a list that are kept are those that no later one replaces. -/
theorem mem_ofList_iff {members : List α} {member : α} :
    member ∈ (ofList members : Keyed key).members ↔
      ∃ before after, members = before ++ member :: after ∧
        ∀ later ∈ after, key later ≠ key member := by
  have found : member ∈ (ofList members : Keyed key).members ↔
      (ofList members : Keyed key).find? (key member) = some member := by
    rw [find?_eq_some_iff, and_iff_left rfl]
  rw [found, find?_ofList, List.find?_eq_some_iff_append]
  simp only [decide_true, true_and, Bool.not_eq_true', decide_eq_false_iff_not]
  constructor
  · rintro ⟨later, earlier, split, others⟩
    refine ⟨earlier.reverse, later.reverse, ?_, ?_⟩
    · rw [← List.reverse_reverse members, split, List.reverse_append, List.reverse_cons,
        List.append_assoc]
      rfl
    · simpa using others
  · rintro ⟨before, after, rfl, others⟩
    refine ⟨after.reverse, before.reverse, ?_, by simpa using others⟩
    rw [List.reverse_append, List.reverse_cons, List.append_assoc]
    rfl

/-- The members of another container take precedence under their keys. -/
theorem find?_insertAll_members (container other : Keyed key) (wanted : κ) :
    (container.insertAll other.members).find? wanted =
      (other.find? wanted).or (container.find? wanted) := by
  rw [find?_insertAll, ← find?_ofList, ofList_members]

/-- Of keys that have been written already none is new. -/
theorem filter_not_mem_append_eraseDups (present written : List κ) :
    (written.filter fun wanted =>
      wanted ∉ present ++ (written.filter fun wanted => wanted ∉ present).eraseDups) = [] := by
  refine List.filter_eq_nil_iff.mpr fun wanted isWritten => ?_
  rw [decide_eq_true_eq, Decidable.not_not, List.mem_append, List.mem_eraseDups]
  by_cases isPresent : wanted ∈ present
  · exact Or.inl isPresent
  · exact Or.inr (List.mem_filter.mpr ⟨isWritten, decide_eq_true isPresent⟩)

/-- Writing the same members once more changes nothing, though on the way the keys that are
repeated among them go back to earlier members. -/
theorem insertAll_insertAll_self (container : Keyed key) (added : List α) :
    (container.insertAll added).insertAll added = container.insertAll added := by
  refine ext_find? ?_ fun wanted => ?_
  · rw [keys_insertAll (container.insertAll added), keys_insertAll,
      filter_not_mem_append_eraseDups]
    exact List.append_nil _
  · rw [find?_insertAll, find?_insertAll, ← Option.or_assoc, Option.or_self]

theorem insertAll_members_insert (container other : Keyed key) (member : α) :
    container.insertAll (other.insert member).members =
      (container.insertAll other.members).insert member := by
  by_cases present : key member ∈ other.keys
  · refine ext_find? ?_ fun wanted => ?_
    · have inBoth : key member ∈ (container.insertAll other.members).keys := by
        rw [← contains_iff_mem_keys, contains_eq_isSome_find?, find?_insertAll_members,
          Option.isSome_or, ← contains_eq_isSome_find?, (contains_iff_mem_keys _ _).mpr present,
          Bool.true_or]
      rw [keys_insert_of_mem _ _ inBoth, keys_insertAll, keys_insertAll]
      show container.keys ++ ((other.insert member).keys.filter _).eraseDups = _
      rw [keys_insert_of_mem _ _ present]
      rfl
    · rw [find?_insertAll_members, find?_insert, find?_insert, find?_insertAll_members]
      split <;> rfl
  · rw [members_insert_of_not_mem _ _ present, insertAll_append]
    rfl

/-- It does not matter whether members are written into a container that is written into another,
or into that one later. -/
theorem insertAll_members_insertAll (container other : Keyed key) (added : List α) :
    container.insertAll (other.insertAll added).members =
      (container.insertAll other.members).insertAll added := by
  induction added generalizing other with
  | nil => rfl
  | cons first others inductionHypothesis =>
    rw [insertAll_cons, inductionHypothesis, insertAll_members_insert, insertAll_cons]

/-! ### Writing what is there -/

theorem insert_eq_self {container : Keyed key} {member : α}
    (found : container.find? (key member) = some member) : container.insert member = container := by
  refine ext_find? ?_ fun wanted => ?_
  · rw [find?_eq_some_iff] at found
    exact keys_insert_of_mem container member (List.mem_map_of_mem found.1)
  · rw [find?_insert]
    split
    · next same => rw [← same, found]
    · rfl

theorem erase_eq_self {container : Keyed key} {unwanted : κ}
    (absent : container.find? unwanted = none) : container.erase unwanted = container := by
  refine ext (List.filter_eq_self.mpr fun member present => decide_eq_true fun same => ?_)
  rw [find?_eq_none_iff] at absent
  exact absent (same ▸ List.mem_map_of_mem present)

/-! ### Writes and removals under some names -/

/-- How a container goes on when members are written or erased under some names. What is found
under other keys stays. The keys are those that were there and then the new ones in the order of
the names, as far as something is found under them. -/
structure GoesOn (names : List κ) (before after : Keyed key) : Prop where
  untouched : ∀ wanted, wanted ∉ names → after.find? wanted = before.find? wanted
  order : after.keys =
    (before.keys ++ names.filter fun name => name ∉ before.keys).filter after.contains

theorem contains_congr {first second : Keyed key} {wanted : κ}
    (same : first.find? wanted = second.find? wanted) :
    first.contains wanted = second.contains wanted := by
  rw [contains_eq_isSome_find?, contains_eq_isSome_find?, same]

/-- Every key is one of its container, and no new name is. -/
theorem filter_contains_self (container : Keyed key) (names : List κ) :
    (container.keys ++ names.filter fun name => name ∉ container.keys).filter container.contains =
      container.keys := by
  have allPresent : container.keys.filter container.contains = container.keys :=
    List.filter_eq_self.mpr fun name present => (contains_iff_mem_keys container name).mpr present
  have noneNew : (names.filter fun name => name ∉ container.keys).filter container.contains = [] :=
    List.filter_eq_nil_iff.mpr fun name isNew present => by
      have absent : name ∉ container.keys := of_decide_eq_true (List.mem_filter.mp isNew).2
      exact absent ((contains_iff_mem_keys container name).mp present)
  rw [List.filter_append, allPresent, noneNew, List.append_nil]

theorem GoesOn.refl (names : List κ) (container : Keyed key) : GoesOn names container container :=
  ⟨fun _ _ => rfl, (filter_contains_self container names).symm⟩

theorem goesOn_insert (container : Keyed key) (member : α) :
    GoesOn [key member] container (container.insert member) := by
  refine ⟨fun wanted other => ?_, ?_⟩
  · exact find?_insert_other container member wanted (List.ne_of_not_mem_cons other)
  · have keys : (container.insert member).keys =
        container.keys ++ [key member].filter fun name => name ∉ container.keys := by
      rw [keys_insert]
      split
      · next present => simp [present]
      · next absent => simp [absent]
    rw [← keys]
    exact (List.filter_eq_self.mpr fun name present =>
      (contains_iff_mem_keys _ name).mpr present).symm

theorem goesOn_erase (container : Keyed key) (unwanted : κ) :
    GoesOn [unwanted] container (container.erase unwanted) := by
  refine ⟨fun wanted other => ?_, ?_⟩
  · rw [find?_erase, if_neg (List.ne_of_not_mem_cons other).symm]
  · have keys : (container.erase unwanted).keys =
        container.keys.filter fun name => decide (name ≠ unwanted) := by
      rw [Keyed.keys, Keyed.keys, List.filter_map]
      rfl
    have present : (container.erase unwanted).contains = fun name =>
        decide (name ≠ unwanted) && container.contains name := by
      funext name
      rw [contains_eq_isSome_find?, contains_eq_isSome_find?, find?_erase]
      by_cases same : name = unwanted
      · simp [same]
      · simp [same, Ne.symm same]
    rw [present, ← List.filter_filter, filter_contains_self]
    exact keys

/-- Writes under some names and then under others are writes under all of these names. A name of
the second kind is new to both containers or to none, and what is there at the end, and not for the
first time, has been there in between. -/
theorem GoesOn.append {first second : List κ} {before between after : Keyed key}
    (onFirst : GoesOn first before between) (onSecond : GoesOn second between after)
    (disjoint : ∀ name ∈ first, name ∉ second) : GoesOn (first ++ second) before after := by
  refine ⟨fun wanted other => ?_, ?_⟩
  · rw [List.mem_append, not_or] at other
    rw [onSecond.untouched wanted other.2, onFirst.untouched wanted other.1]
  have sameNew : (second.filter fun name => name ∉ between.keys) =
      second.filter fun name => name ∉ before.keys := by
    refine List.filter_congr fun name isSecond => ?_
    have notFirst : name ∉ first := fun isFirst => disjoint name isFirst isSecond
    rw [decide_eq_decide, ← find?_eq_none_iff, ← find?_eq_none_iff,
      onFirst.untouched name notFirst]
  have stays : ∀ name ∈ before.keys ++ first.filter (fun name => name ∉ before.keys),
      (after.contains name && between.contains name) = after.contains name := by
    intro name isOld
    by_cases isSecond : name ∈ second
    · have notFirst : name ∉ first := fun isFirst => disjoint name isFirst isSecond
      have present : name ∈ before.keys := (List.mem_append.mp isOld).resolve_right
        fun isNew => notFirst (List.mem_filter.mp isNew).1
      rw [contains_congr (onFirst.untouched name notFirst),
        (contains_iff_mem_keys before name).mpr present, Bool.and_true]
    · rw [contains_congr (onSecond.untouched name isSecond), Bool.and_self]
  rw [onSecond.order, onFirst.order, List.filter_append, List.filter_filter, ← onFirst.order,
    sameNew, List.filter_congr stays, ← List.filter_append, List.append_assoc,
    ← List.filter_append]

/-- What is found in a container does not depend on the order of its members. -/
theorem find?_perm {first second : Keyed key} (perm : first.members.Perm second.members) :
    first.find? = second.find? := by
  funext wanted
  refine Option.ext fun member => ?_
  rw [find?_eq_some_iff, find?_eq_some_iff, perm.mem_iff]

/-! ### Mappings -/

theorem mem_of_get?_eq_some {ν : Type} {mapping : Mapping κ ν} {wanted : κ} {value : ν}
    (found : mapping.get? wanted = some value) : (wanted, value) ∈ mapping.members := by
  obtain ⟨⟨given, value⟩, isEntry, rfl⟩ := Option.map_eq_some_iff.mp found
  obtain ⟨present, rfl⟩ := find?_eq_some_iff.mp isEntry
  exact present

theorem get?_eq_some_iff {ν : Type} {mapping : Mapping κ ν} {wanted : κ} {value : ν} :
    mapping.get? wanted = some value ↔ (wanted, value) ∈ mapping.members := by
  refine ⟨mem_of_get?_eq_some, fun present => ?_⟩
  rw [get?, find?_key_of_mem present]
  rfl

theorem get?_eq_none_iff {ν : Type} {mapping : Mapping κ ν} {wanted : κ} :
    mapping.get? wanted = none ↔ wanted ∉ mapping.keys :=
  Option.map_eq_none_iff.trans find?_eq_none_iff

/-- What the value under a key, if there is one, makes of something. -/
def effectUnder {ν β : Type} (mapping : Mapping κ ν) (wanted : κ) (effect : ν → β → β)
    (before : β) : β :=
  match mapping.get? wanted with
  | some value => effect value before
  | none => before

/-- Of the entries of a mapping, only the one for the wanted key has an effect on what is observed
of a state through which they are run. The keys are distinct, so it has its effect once. -/
theorem observe_foldl {ν σ β : Type} {step : σ → κ × ν → σ} {observe : σ → β} {wanted : κ}
    (effect : ν → β → β)
    (single : ∀ state entry, observe (step state entry) =
      if entry.1 = wanted then effect entry.2 (observe state) else observe state)
    (state : σ) (mapping : Mapping κ ν) :
    observe (mapping.members.foldl step state) =
      mapping.effectUnder wanted effect (observe state) := by
  obtain ⟨entries, distinct⟩ := mapping
  show observe (entries.foldl step state) =
    match (entries.find? fun entry => entry.1 = wanted).map Prod.snd with
    | some value => effect value (observe state)
    | none => observe state
  replace distinct : (entries.map Prod.fst).Nodup := distinct
  induction entries generalizing state with
  | nil => rfl
  | cons first others inductionHypothesis =>
    rw [List.map_cons, List.nodup_cons] at distinct
    rw [List.foldl_cons, inductionHypothesis _ distinct.2, single]
    by_cases isWanted : first.1 = wanted
    · have noOther : (others.find? fun entry => entry.1 = wanted) = none := by
        rw [List.find?_eq_none]
        intro entry isOther same
        rw [decide_eq_true_iff, ← isWanted] at same
        exact distinct.1 (same ▸ List.mem_map_of_mem isOther)
      rw [List.find?_cons_of_pos (by simpa using isWanted), noOther, if_pos isWanted]
      rfl
    · rw [List.find?_cons_of_neg (by simpa using isWanted), if_neg isWanted]

theorem get?_perm {ν : Type} {first second : Mapping κ ν}
    (perm : first.members.Perm second.members) : first.get? = second.get? := by
  funext wanted
  rw [get?, get?, find?_perm perm]

theorem effectUnder_self {ν β : Type} (mapping : Mapping κ ν) (wanted : κ) {effect : ν → β → β}
    (again : ∀ value before, effect value (effect value before) = effect value before)
    (before : β) :
    mapping.effectUnder wanted effect (mapping.effectUnder wanted effect before) =
      mapping.effectUnder wanted effect before := by
  unfold effectUnder
  split
  · next value _ => exact again value before
  · rfl

theorem effectUnder_perm {ν β : Type} {first second : Mapping κ ν}
    (perm : first.members.Perm second.members) (wanted : κ) (effect : ν → β → β) (before : β) :
    first.effectUnder wanted effect before = second.effectUnder wanted effect before := by
  rw [effectUnder, effectUnder, get?_perm perm]

theorem get?_empty {ν : Type} (wanted : κ) : (∅ : Mapping κ ν).get? wanted = none := rfl

theorem get?_set {ν : Type} (mapping : Mapping κ ν) (written wanted : κ) (value : ν) :
    (mapping.set written value).get? wanted =
      if written = wanted then some value else mapping.get? wanted := by
  rw [get?, set, find?_insert]
  split <;> rfl

end SchemaAssembly.Keyed
