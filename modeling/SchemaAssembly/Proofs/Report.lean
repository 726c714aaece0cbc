/-
This file proves that a report of several problems can be taken apart again. Within an item a line
break is always followed by blanks, and in front of an item by another line break, so whoever reads
a report from its start knows at each line break whether the item goes on. No message, whatever it
quotes, can therefore be taken for two, or for the end of the one before it.
-/

import SchemaAssembly.Proofs.Problem

namespace SchemaAssembly

namespace Problem

/-! ### Reading a report -/

/-- Puts letters in front of the first of some texts. -/
def inFrontOfFirst (letters : List Char) : List (List Char) → List (List Char)
  | [] => [letters]
  | first :: others => (letters ++ first) :: others

/-- The texts before, between and after the bullets of a report, no longer indented. -/
def readItems : List Char → List (List Char)
  | [] => [[]]
  | '\n' :: '\n' :: ' ' :: ' ' :: '-' :: ' ' :: rest => [] :: readItems rest
  | '\n' :: ' ' :: ' ' :: ' ' :: ' ' :: rest => inFrontOfFirst ['\n'] (readItems rest)
  | letter :: rest => inFrontOfFirst [letter] (readItems rest)

theorem inFrontOfFirst_nil_readItems (source : List Char) :
    inFrontOfFirst [] (readItems source) = readItems source := by
  fun_cases readItems source with
  | case1 => rfl
  | case2 => rfl
  | case3 rest => cases readItems rest <;> rfl
  | case4 letter rest => cases readItems rest <;> rfl

theorem inFrontOfFirst_append (front letters : List Char) (texts : List (List Char)) :
    inFrontOfFirst front (inFrontOfFirst letters texts) =
      inFrontOfFirst (front ++ letters) texts := by
  cases texts with
  | nil => rfl
  | cons first others =>
    rw [inFrontOfFirst, inFrontOfFirst, inFrontOfFirst, List.append_assoc]

theorem readItems_bullet_append (rest : List Char) :
    readItems (bullet ++ rest) = [] :: readItems rest := rfl

/-- A character other than a line break belongs to the item in which it stands. -/
theorem readItems_cons {letter : Char} (notLineBreak : letter ≠ '\n') (rest : List Char) :
    readItems (letter :: rest) = inFrontOfFirst [letter] (readItems rest) := by
  rw [readItems]
  · exact fun _ isLineBreak _ => notLineBreak isLineBreak
  · exact fun _ isLineBreak _ => notLineBreak isLineBreak

/-- A message is read up to its end, whatever it holds and whatever stands behind it. -/
theorem readItems_indented_append (letters rest : List Char) :
    readItems (indented letters ++ rest) = inFrontOfFirst letters (readItems rest) := by
  induction letters with
  | nil => exact (inFrontOfFirst_nil_readItems rest).symm
  | cons letter others inductionHypothesis =>
    rw [indented, List.flatMap_cons, List.append_assoc]
    change readItems (_ ++ (indented others ++ rest)) = _
    by_cases isLineBreak : letter = '\n'
    · rw [if_pos isLineBreak, isLineBreak]
      show inFrontOfFirst ['\n'] (readItems (indented others ++ rest)) = _
      rw [inductionHypothesis, inFrontOfFirst_append, List.singleton_append]
    · rw [if_neg isLineBreak, List.singleton_append, readItems_cons isLineBreak,
        inductionHypothesis, inFrontOfFirst_append, List.singleton_append]

/-- The items of a list of bullets are the messages, with nothing before the first of them. -/
theorem readItems_flatMap_bullet (messages : List (List Char)) :
    readItems (messages.flatMap fun letters => bullet ++ indented letters) = [] :: messages := by
  induction messages with
  | nil => rfl
  | cons first others inductionHypothesis =>
    rw [List.flatMap_cons, List.append_assoc, readItems_bullet_append, readItems_indented_append,
      inductionHypothesis, inFrontOfFirst, List.append_nil]

/-- A message without line breaks is not indented. -/
theorem indented_of_notMem {letters : List Char} (inLine : '\n' ∉ letters) :
    indented letters = letters := by
  induction letters with
  | nil => rfl
  | cons letter others inductionHypothesis =>
    rw [List.mem_cons, not_or] at inLine
    rw [indented, List.flatMap_cons, if_neg (Ne.symm inLine.1), List.singleton_append]
    exact congrArg (letter :: ·) (inductionHypothesis inLine.2)

/-- A report is read as the line that it starts with and the messages in it. -/
theorem readItems_heading_append {heading : List Char} (inLine : '\n' ∉ heading)
    (messages : List (List Char)) :
    readItems (heading ++ messages.flatMap fun letters => bullet ++ indented letters) =
      heading :: messages := by
  have read := readItems_indented_append heading
    (messages.flatMap fun letters => bullet ++ indented letters)
  rwa [indented_of_notMem inLine, readItems_flatMap_bullet, inFrontOfFirst, List.append_nil]
    at read

theorem tail_readItems_reportOf (messages : List (List Char)) :
    (readItems (reportOf messages)).tail = messages :=
  congrArg List.tail (readItems_heading_append (by simp) messages)

/-! ### Reports that are the same -/

theorem report_eq_iff_map_message (first second : List Problem) :
    report first = report second ↔ first.map message = second.map message := by
  constructor
  · intro same
    have sameLetters : reportOf (first.map fun problem => problem.message.toList) =
        reportOf (second.map fun problem => problem.message.toList) := String.ofList_injective same
    have sameItems := congrArg (fun letters => (readItems letters).tail) sameLetters
    simp only [tail_readItems_reportOf] at sameItems
    have sameTexts := congrArg (List.map String.ofList) sameItems
    simpa only [List.map_map, Function.comp_def, String.ofList_toList] using sameTexts
  · intro same
    have letters (problems : List Problem) :
        (problems.map fun problem => problem.message.toList) =
          (problems.map message).map String.toList := by
      rw [List.map_map]
      rfl
    rw [report, report, letters, letters, same]

/-- Two reports are the same only if they list equally many problems whose messages are the same
one by one. -/
theorem report_eq_report_iff (first second : List Problem) :
    report first = report second ↔
      first.length = second.length ∧
        ∀ place : Nat, first[place]?.map message = second[place]?.map message := by
  rw [report_eq_iff_map_message]
  constructor
  · intro same
    refine ⟨by simpa only [List.length_map] using congrArg List.length same, fun place => ?_⟩
    rw [← List.getElem?_map, same, List.getElem?_map]
  · rintro ⟨-, sameMessages⟩
    refine List.ext_getElem? fun place => ?_
    rw [List.getElem?_map, List.getElem?_map, sameMessages place]

/-- A message that ends like a report goes on is told from the two messages that it imitates. -/
example :
    report [.notADataObject "A\n\n  - Class \"B"] ≠
      report [.notADataObject "A", .notADataObject "B"] := by
  decide

/-! ### Failures -/

theorem head?_append_ne {front : String} {letter : Char}
    (starts : front.toList.head?.any (· != letter) = true) (rest : String) :
    (front ++ rest).toList.head? ≠ some letter := by
  obtain ⟨first, isFirst, other⟩ := (Option.any_eq_true _ _).mp starts
  rw [String.toList_append, List.head?_append, isFirst, Option.some_or, ne_eq, Option.some_inj]
  exact bne_iff_ne.mp other

/-- No message of a problem starts like a report. -/
theorem head?_message_ne (problem : Problem) : problem.message.toList.head? ≠ some 'T' := by
  unfold message
  split
  case h_5 => exact head?_append_ne (by decide +kernel) _
  all_goals
    simp only [String.append_assoc]
    exact head?_append_ne (by decide +kernel) _

/-- No message of a problem can be taken for a report. -/
theorem message_ne_report (problem : Problem) (problems : List Problem) :
    problem.message ≠ report problems := by
  intro same
  refine head?_message_ne problem ?_
  rw [same, report, String.toList_ofList]
  rfl

end Problem

/-- The message of a failure tells the messages of its problems, be it one that is shown on its own
or several in a report. -/
theorem Failure.message_eq_iff (first second : Failure) :
    first.message = second.message ↔
      first.problems.map Problem.message = second.problems.map Problem.message := by
  obtain ⟨alone, others⟩ := first
  obtain ⟨otherAlone, otherOthers⟩ := second
  rw [message, message, problems, problems]
  cases others with
  | nil =>
    cases otherOthers with
    | nil => simp
    | cons next more => simp [Problem.message_ne_report]
  | cons next more =>
    cases otherOthers with
    | nil => simp [(Problem.message_ne_report _ _).symm]
    | cons => exact Problem.report_eq_iff_map_message _ _

end SchemaAssembly
