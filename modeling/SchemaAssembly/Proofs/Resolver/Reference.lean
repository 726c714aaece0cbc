/-
This file proves what a reference to a resolver function is worth. A check passes exactly for the
targets that are usable: both parts are there, neither holds the separator, and the function is
known. The pair that a reference is made of therefore always gives the reference back. Its text
does so exactly when the class does not end in a colon: a colon at the end of the class moves over
to the method when the text is split, because separators are taken from the left. The move is also
the only way in which two references come to have one text.
-/

import Mathlib.Data.List.Infix
import SchemaAssembly.Resolver.Reference

namespace SchemaAssembly

namespace Target

/-! ### Usable targets -/

/-- A target that may be bound to a field: class and method are there, neither holds the
separator, and the function is known. -/
structure IsUsable (known : KnownTargets) (target : Target) : Prop where
  className_ne : target.className ≠ ""
  methodName_ne : target.methodName ≠ ""
  className_clean : ¬separator.toList <:+: target.className.toList
  methodName_clean : ¬separator.toList <:+: target.methodName.toList
  mem_known : target ∈ known

theorem hasSeparator_eq_true_iff (letters : List Char) :
    hasSeparator letters = true ↔ separator.toList <:+: letters := by
  have spelled : separator.toList = [':', ':'] := rfl
  rw [spelled]
  fun_induction hasSeparator letters with
  | case1 rest => exact iff_of_true rfl ⟨[], rest, rfl⟩
  | case2 first rest notSeparator inductionHypothesis =>
    refine Iff.trans inductionHypothesis ?_
    rw [List.infix_cons_iff]
    refine ⟨Or.inr, fun occurs => occurs.resolve_left ?_⟩
    rintro ⟨after, equal⟩
    rw [List.cons_append, List.cons.injEq] at equal
    exact notSeparator after equal.1.symm equal.2.symm
  | case3 => simp

theorem hasSeparator_eq_false_iff (letters : List Char) :
    hasSeparator letters = false ↔ ¬separator.toList <:+: letters := by
  rw [← hasSeparator_eq_true_iff, Bool.not_eq_true]

/-! ### Splitting a text at separators -/

/-- A text without separator is a single part. -/
theorem partsFrom_of_not_hasSeparator (part letters : List Char)
    (clean : hasSeparator letters = false) :
    partsFrom part letters = [part.reverse ++ letters] := by
  fun_induction partsFrom part letters with
  | case1 part rest => simp [hasSeparator] at clean
  | case2 part letter rest notSeparator inductionHypothesis =>
    have cleanRest : hasSeparator rest = false := by
      rw [hasSeparator] at clean
      · exact clean
      · exact notSeparator
    rw [inductionHypothesis cleanRest, List.reverse_cons, List.append_assoc,
      List.singleton_append]
  | case3 part => rw [List.append_nil]

/-- What stands before the first separator is the first part. The separator is the first one if
none ends at its first colon. -/
theorem partsFrom_append_separator (part front rest : List Char)
    (clean : hasSeparator (front ++ [':']) = false) :
    partsFrom part (front ++ separator.toList ++ rest) =
      (part.reverse ++ front) :: partsFrom [] rest := by
  induction front generalizing part with
  | nil =>
    show partsFrom part (':' :: ':' :: rest) = _
    rw [partsFrom, List.append_nil]
  | cons letter others inductionHypothesis =>
    rw [List.cons_append] at clean
    have notSeparator : ∀ after, letter = ':' → others ++ [':'] = ':' :: after → False := by
      intro after isColon follows
      rw [isColon, follows, hasSeparator] at clean
      exact Bool.noConfusion clean
    rw [hasSeparator] at clean
    · rw [List.cons_append, List.cons_append, partsFrom, inductionHypothesis _ clean,
        List.reverse_cons, List.append_assoc, List.singleton_append]
      intro after isColon follows
      cases others with
      | nil => exact notSeparator [] isColon rfl
      | cons second tail =>
        rw [List.cons_append, List.cons_append, List.cons.injEq] at follows
        exact notSeparator (tail ++ [':']) isColon (by rw [follows.1]; rfl)
    · exact notSeparator

/-- A text ends in a colon. -/
def EndsInColon (text : String) : Prop :=
  ∃ front, text = front ++ ":"

theorem endsInColon_iff (text : String) :
    EndsInColon text ↔ ∃ front, text.toList = front ++ [':'] := by
  constructor
  · rintro ⟨front, rfl⟩
    exact ⟨front.toList, String.toList_append⟩
  · rintro ⟨front, equal⟩
    refine ⟨String.ofList front, String.toList_injective ?_⟩
    rw [equal, String.toList_append, String.toList_ofList]
    rfl

/-- A separator can only come about at the end of a text by a colon that was there before. -/
theorem hasSeparator_append_colon (letters : List Char) (clean : hasSeparator letters = false) :
    hasSeparator (letters ++ [':']) = true ↔ ∃ front, letters = front ++ [':'] := by
  rw [hasSeparator_eq_false_iff] at clean
  rw [hasSeparator_eq_true_iff]
  constructor
  · rintro ⟨before, after, equal⟩
    rcases List.eq_nil_or_concat after with rfl | ⟨others, last, rfl⟩
    · have whole : letters ++ [':'] = (before ++ [':']) ++ [':'] := by
        rw [← equal, List.append_nil, List.append_assoc]
        rfl
      exact ⟨before, List.append_cancel_right whole⟩
    · rw [List.concat_eq_append, ← List.append_assoc] at equal
      exact absurd ⟨before, others, (List.append_inj' equal rfl).1⟩ clean
  · rintro ⟨front, rfl⟩
    exact ⟨front, [], by rw [List.append_nil, List.append_assoc]; rfl⟩

theorem text_toList (target : Target) :
    target.text.toList =
      target.className.toList ++ separator.toList ++ target.methodName.toList := by
  rw [text, String.toList_append, String.toList_append]

end Target

namespace Reference

open Target

/-- A check passes for the usable targets, and gives the target as a reference. -/
theorem check_eq_ok_iff (known : KnownTargets) (target : Target) (reference : Reference) :
    check known target = .ok reference ↔ target.IsUsable known ∧ reference = ⟨target⟩ := by
  unfold check
  constructor
  · intro passed
    split at passed
    · simp at passed
    · next parts =>
      split at passed
      · simp at passed
      · next clean =>
        split at passed
        · next isKnown =>
          rw [Bool.or_eq_true, not_or, String.isEmpty_iff, String.isEmpty_iff] at parts
          rw [Bool.or_eq_true, not_or, Bool.not_eq_true, Bool.not_eq_true,
            hasSeparator_eq_false_iff, hasSeparator_eq_false_iff] at clean
          refine ⟨⟨parts.1, parts.2, clean.1, clean.2, List.contains_iff_mem.mp isKnown⟩, ?_⟩
          exact (Except.ok.inj passed).symm
        · split at passed <;> simp at passed
  · rintro ⟨usable, rfl⟩
    have parts : (target.className.isEmpty || target.methodName.isEmpty) = false := by
      rw [Bool.or_eq_false_iff, ← Bool.not_eq_true, ← Bool.not_eq_true, String.isEmpty_iff,
        String.isEmpty_iff]
      exact ⟨usable.className_ne, usable.methodName_ne⟩
    have clean : (hasSeparator target.className.toList ||
        hasSeparator target.methodName.toList) = false := by
      rw [Bool.or_eq_false_iff, hasSeparator_eq_false_iff, hasSeparator_eq_false_iff]
      exact ⟨usable.className_clean, usable.methodName_clean⟩
    have isKnown : known.contains target = true := List.contains_iff_mem.mpr usable.mem_known
    rw [parts, clean, isKnown]
    rfl

theorem not_isUsable_of_check_eq_error {known : KnownTargets} {target : Target} {problem : Problem}
    (refused : check known target = .error problem) : ¬target.IsUsable known := by
  intro usable
  have passed := (check_eq_ok_iff known target ⟨target⟩).mpr ⟨usable, rfl⟩
  rw [refused] at passed
  simp at passed

/-! ### References that configuration can come by -/

/-- The references that there are: a target that has been checked, or a text that has been read. -/
inductive Obtained (known : KnownTargets) : Reference → Prop
  | checked {target : Target} {reference : Reference}
      (passed : check known target = .ok reference) : Obtained known reference
  | parsed {callable : String} {reference : Reference}
      (passed : parse known callable = .ok reference) : Obtained known reference

/-- A text is read as a reference when its parts are the class and the method of one. -/
theorem parse_eq_ok_iff (known : KnownTargets) (callable : String) (reference : Reference) :
    parse known callable = .ok reference ↔
      parts callable = [reference.target.className, reference.target.methodName] ∧
        reference.target.IsUsable known := by
  unfold parse
  constructor
  · intro passed
    dsimp only at passed
    split at passed
    · next className methodName two =>
      split at passed
      · simp at passed
      · obtain ⟨usable, rfl⟩ := (check_eq_ok_iff known _ reference).mp passed
        exact ⟨two, usable⟩
    · simp at passed
  · rintro ⟨two, usable⟩
    have parts : (reference.target.className.isEmpty ||
        reference.target.methodName.isEmpty) = false := by
      rw [Bool.or_eq_false_iff, ← Bool.not_eq_true, ← Bool.not_eq_true, String.isEmpty_iff,
        String.isEmpty_iff]
      exact ⟨usable.className_ne, usable.methodName_ne⟩
    rw [two]
    dsimp only
    rw [parts, if_neg Bool.false_ne_true]
    exact (check_eq_ok_iff known _ reference).mpr ⟨usable, rfl⟩

/-- However a reference is come by, its target is usable. -/
theorem obtained_iff_isUsable (known : KnownTargets) (reference : Reference) :
    Obtained known reference ↔ reference.target.IsUsable known := by
  constructor
  · rintro (passed | passed)
    · obtain ⟨usable, rfl⟩ := (check_eq_ok_iff known _ reference).mp passed
      exact usable
    · exact ((parse_eq_ok_iff known _ reference).mp passed).2
  · intro usable
    exact .checked ((check_eq_ok_iff known _ reference).mpr ⟨usable, rfl⟩)

/-! ### The text of a reference -/

/-- The text of a target splits into class and method if no colon ends the class. -/
theorem parts_text {target : Target}
    (className_clean : ¬separator.toList <:+: target.className.toList)
    (methodName_clean : ¬separator.toList <:+: target.methodName.toList)
    (noColon : ¬EndsInColon target.className) :
    parts target.text = [target.className, target.methodName] := by
  rw [← hasSeparator_eq_false_iff] at className_clean methodName_clean
  have first : hasSeparator (target.className.toList ++ [':']) = false := by
    rw [← Bool.not_eq_true, hasSeparator_append_colon _ className_clean, ← endsInColon_iff]
    exact noColon
  rw [parts, text_toList, partsFrom_append_separator _ _ _ first,
    partsFrom_of_not_hasSeparator _ _ methodName_clean]
  simp

/-- A colon at the end of the class is taken for the start of the separator: the first part of
the text is the class without it. -/
theorem parts_text_of_endsInColon {target : Target}
    (className_clean : ¬separator.toList <:+: target.className.toList)
    (colon : EndsInColon target.className) :
    ∃ front others, parts target.text = front :: others ∧ target.className = front ++ ":" := by
  obtain ⟨front, equal⟩ := (endsInColon_iff _).mp colon
  rw [equal, ← hasSeparator_eq_false_iff] at className_clean
  have shifted : target.text.toList =
      front ++ separator.toList ++ (':' :: target.methodName.toList) := by
    rw [text_toList, equal]
    simp [separator]
  refine ⟨String.ofList front,
    (partsFrom [] (':' :: target.methodName.toList)).map String.ofList, ?_,
    String.toList_injective ?_⟩
  · rw [parts, shifted, partsFrom_append_separator _ _ _ className_clean, List.map_cons,
      List.reverse_nil, List.nil_append]
  · rw [equal, String.toList_append, String.toList_ofList]
    rfl

/-- Two targets that differ by where a colon belongs: it ends the class of the second, or starts
the method of the first. -/
def Shifted (first second : Target) : Prop :=
  second.className = first.className ++ ":" ∧ first.methodName = ":" ++ second.methodName

theorem text_eq_of_shifted {first second : Target} (shifted : Shifted first second) :
    first.text = second.text := by
  refine String.toList_injective ?_
  rw [text_toList, text_toList, shifted.1, shifted.2, String.toList_append, String.toList_append]
  simp [separator]

/-- Where the classes of two targets of one text differ in length, the longer class is the shorter
one and a colon: with two more characters it would hold a separator. -/
theorem shifted_of_append {first second : Target} (extra : List Char)
    (className_clean : ¬separator.toList <:+: second.className.toList)
    (longer : second.className.toList = first.className.toList ++ extra)
    (rest : separator.toList ++ first.methodName.toList =
      extra ++ (separator.toList ++ second.methodName.toList)) :
    first = second ∨ Shifted first second := by
  have spelled : separator.toList = [':', ':'] := rfl
  cases first with | mk firstClass firstMethod =>
  cases second with | mk secondClass secondMethod =>
  dsimp only at longer rest className_clean ⊢
  match extra with
  | [] =>
    left
    rw [List.append_nil] at longer
    rw [List.nil_append] at rest
    rw [String.toList_injective longer, String.toList_injective (List.append_cancel_left rest)]
  | [letter] =>
    right
    simp only [spelled, List.cons_append, List.nil_append, List.cons.injEq, true_and] at rest
    refine ⟨String.toList_injective ?_, String.toList_injective ?_⟩
    · rw [String.toList_append, longer, ← rest.1]
      rfl
    · rw [String.toList_append]
      exact rest.2
  | letter :: second :: others =>
    simp only [spelled, List.cons_append, List.nil_append, List.cons.injEq] at rest
    refine absurd ⟨firstClass.toList, others, ?_⟩ className_clean
    rw [longer, ← rest.1, ← rest.2.1, spelled, List.append_assoc]
    rfl

/-- Usable targets of one text are equal or differ by where a colon belongs. -/
theorem text_eq_iff {known : KnownTargets} {first second : Target}
    (firstUsable : first.IsUsable known) (secondUsable : second.IsUsable known) :
    first.text = second.text ↔ first = second ∨ Shifted first second ∨ Shifted second first := by
  constructor
  · intro equal
    have letters := congrArg String.toList equal
    rw [text_toList, text_toList, List.append_assoc, List.append_assoc,
      List.append_eq_append_iff] at letters
    rcases letters with ⟨extra, longer, rest⟩ | ⟨extra, longer, rest⟩
    · rcases shifted_of_append extra secondUsable.className_clean longer rest with same | shifted
      · exact Or.inl same
      · exact Or.inr (Or.inl shifted)
    · rcases shifted_of_append extra firstUsable.className_clean longer rest with same | shifted
      · exact Or.inl same.symm
      · exact Or.inr (Or.inr shifted)
  · rintro (same | shifted | shifted)
    · rw [same]
    · exact text_eq_of_shifted shifted
    · exact (text_eq_of_shifted shifted).symm

/-- The pair form of a reference always gives it back. Its text form does so exactly when the
class does not end in a colon, and stands for another reference only where a colon at the end of
one class is a colon at the start of the other's method. -/
theorem parse_text_eq_ok_iff (known : KnownTargets) (reference : Reference)
    (obtained : Obtained known reference) :
    check known reference.target = .ok reference ∧
      (parse known reference.text = .ok reference ↔ ¬EndsInColon reference.target.className) ∧
      ∀ other, Obtained known other →
        (reference.text = other.text ↔
          reference = other ∨ Shifted reference.target other.target ∨
            Shifted other.target reference.target) := by
  have usable := (obtained_iff_isUsable known reference).mp obtained
  refine ⟨(check_eq_ok_iff known _ reference).mpr ⟨usable, rfl⟩, ?_, ?_⟩
  · rw [parse_eq_ok_iff]
    constructor
    · rintro ⟨two, -⟩ colon
      obtain ⟨front, others, split, equal⟩ :=
        parts_text_of_endsInColon usable.className_clean colon
      have same : front = reference.target.className :=
        (List.cons.inj (split.symm.trans two)).1
      rw [← same] at equal
      have lengths := congrArg (fun text => text.toList.length) equal
      simp [String.toList_append] at lengths
    · intro noColon
      exact ⟨parts_text usable.className_clean usable.methodName_clean noColon, usable⟩
  · intro other otherObtained
    have otherUsable := (obtained_iff_isUsable known other).mp otherObtained
    refine (text_eq_iff usable otherUsable).trans (or_congr_left ?_)
    cases reference
    cases other
    rw [Reference.mk.injEq]

/-- Single colons elsewhere do no harm. -/
theorem parse_text_of_single_colons :
    Obtained [⟨"a:b", ":c"⟩] ⟨⟨"a:b", ":c"⟩⟩ ∧
      parse [⟨"a:b", ":c"⟩] (text ⟨⟨"a:b", ":c"⟩⟩) = .ok ⟨⟨"a:b", ":c"⟩⟩ := by
  have obtained : Obtained [⟨"a:b", ":c"⟩] ⟨⟨"a:b", ":c"⟩⟩ :=
    .checked (show check _ ⟨"a:b", ":c"⟩ = _ by decide)
  refine ⟨obtained, (parse_text_eq_ok_iff _ _ obtained).2.1.mpr ?_⟩
  rw [endsInColon_iff]
  rintro ⟨front, equal⟩
  have last := congrArg List.getLast? equal
  rw [List.getLast?_concat] at last
  exact absurd last (by decide)

/-- A class that ends in a colon is checked, but the text of the reference is not read back; with
both targets known, one text stands for two references. -/
theorem parse_text_ne_of_final_colon :
    Obtained [⟨"a:", "b"⟩, ⟨"a", ":b"⟩] ⟨⟨"a:", "b"⟩⟩ ∧
      Obtained [⟨"a:", "b"⟩, ⟨"a", ":b"⟩] ⟨⟨"a", ":b"⟩⟩ ∧
      parse [⟨"a:", "b"⟩, ⟨"a", ":b"⟩] (text ⟨⟨"a:", "b"⟩⟩) ≠ .ok ⟨⟨"a:", "b"⟩⟩ ∧
      text ⟨⟨"a:", "b"⟩⟩ = text ⟨⟨"a", ":b"⟩⟩ :=
  ⟨.checked (show check _ ⟨"a:", "b"⟩ = _ by decide),
    .checked (show check _ ⟨"a", ":b"⟩ = _ by decide), by decide, by decide⟩

end Reference

end SchemaAssembly
