/-
This file proves how numbers are split off a source. The digits, the fraction and the exponent are
each taken as far as they go, so the parts that are read are those of the grammar of numbers, and
a number of the grammar is read whole wherever nothing follows that would continue it.
-/

import SchemaAssembly.Proofs.Grammar.Layout

namespace SchemaAssembly.Grammar

/-! ### Characters -/

/-- No digit stands at the start of a source. -/
def StartsNoDigit (source : List Char) : Prop :=
  ∀ letter ∈ source.head?, letter.isDigit = false

/-- Nothing stands at the start of a source that would continue a number before it. -/
def EndsNumber (source : List Char) : Prop :=
  ∀ letter ∈ source.head?, isNamePart letter = false ∧ letter ≠ '.'

/-- A name goes on with what it may start with, and with digits. -/
theorem isNamePart_eq (letter : Char) :
    isNamePart letter = (isNameStart letter || letter.isDigit) := by
  rw [isNamePart, isNameStart, Char.isAlphanum, Bool.or_assoc]

theorem EndsNumber.startsNoDigit {source : List Char} (ends : EndsNumber source) :
    StartsNoDigit source := by
  intro letter isFirst
  have notPart := (ends letter isFirst).1
  rw [isNamePart_eq, Bool.or_eq_false_iff] at notPart
  exact notPart.2

/-! ### Digits -/

/-- Accepted characters are taken up to the first one that is not accepted. -/
theorem takeWhile_dropWhile_append {accepted : Char → Bool} {front rest : List Char}
    (all : ∀ letter ∈ front, accepted letter = true)
    (stops : ∀ letter ∈ rest.head?, accepted letter = false) :
    (front ++ rest).takeWhile accepted = front ∧ (front ++ rest).dropWhile accepted = rest := by
  rw [List.takeWhile_append_of_pos all, List.dropWhile_append_of_pos all]
  cases rest with
  | nil => exact ⟨List.append_nil _, rfl⟩
  | cons letter others =>
    have stop : ¬accepted letter = true := by rw [stops letter rfl]; exact Bool.false_ne_true
    rw [List.takeWhile_cons_of_neg stop, List.dropWhile_cons_of_neg stop, List.append_nil]
    exact ⟨rfl, rfl⟩

theorem dropWhile_head?_eq_false (accepted : Char → Bool) (source : List Char) :
    ∀ letter ∈ (source.dropWhile accepted).head?, accepted letter = false := by
  intro letter isFirst
  have stop := List.head?_dropWhile_not accepted source
  rw [isFirst] at stop
  simpa using stop

/-- The digits at the start of a source are taken as far as they go. -/
theorem digits?_eq_some {source digits after : List Char}
    (read : Natural.digits? source = some (digits, after)) :
    source = digits ++ after ∧ IsDigits digits ∧ StartsNoDigit after := by
  unfold Natural.digits? at read
  split at read
  · simp at read
  · next nonempty =>
    obtain ⟨rfl, rfl⟩ := Prod.mk.injEq .. ▸ Option.some.inj read
    refine ⟨List.takeWhile_append_dropWhile.symm, ⟨nonempty, fun letter member => ?_⟩,
      dropWhile_head?_eq_false Char.isDigit source⟩
    exact List.all_eq_true.mp List.all_takeWhile letter member

/-- Digits are read up to the first character that is none. -/
theorem digits?_append {digits rest : List Char} (isDigits : IsDigits digits)
    (stops : StartsNoDigit rest) : Natural.digits? (digits ++ rest) = some (digits, rest) := by
  obtain ⟨taken, left⟩ := takeWhile_dropWhile_append isDigits.2 stops
  unfold Natural.digits?
  split
  · next none => exact absurd (taken.symm.trans none) isDigits.1
  · rw [taken, left]

/-- Digits do not start with a given character that is no digit. -/
theorem IsDigits.ne_cons {digits rest more : List Char} {letter : Char} (isDigits : IsDigits digits)
    (notDigit : letter.isDigit = false) : digits ++ rest ≠ letter :: more := by
  obtain ⟨nonempty, all⟩ := isDigits
  cases digits with
  | nil => exact absurd rfl nonempty
  | cons first others =>
    intro equal
    have isDigit := all first List.mem_cons_self
    rw [(List.cons.inj equal).1, notDigit] at isDigit
    exact Bool.false_ne_true isDigit

/-! ### The parts of a number -/

/-- Reading a sign splits the source, and the first part is a minus sign or empty. -/
theorem sign_split (source : List Char) :
    source = (sign source).1 ++ (sign source).2 ∧
      ((sign source).1 = [] ∨ (sign source).1 = ['-']) := by
  unfold sign
  split
  · exact ⟨rfl, Or.inr rfl⟩
  · exact ⟨rfl, Or.inl rfl⟩

theorem sign_append {front digits rest : List Char} (isSign : front = [] ∨ front = ['-'])
    (isDigits : IsDigits digits) : sign (front ++ (digits ++ rest)) = (front, digits ++ rest) := by
  rcases isSign with rfl | rfl
  · unfold sign
    split
    · next equal => exact absurd equal (isDigits.ne_cons rfl)
    · rfl
  · rfl

/-- Reading a fraction splits the source; a fraction that is there has all digits that follow its
point. -/
theorem fraction_split (source : List Char) :
    source = (fraction source).1 ++ (fraction source).2 ∧
      ((fraction source).1 = [] ∨
        IsFraction (fraction source).1 ∧ StartsNoDigit (fraction source).2) := by
  unfold fraction
  split
  · split
    · next read =>
      obtain ⟨split, isDigits, stops⟩ := digits?_eq_some read
      exact ⟨congrArg ('.' :: ·) split, Or.inr ⟨⟨_, rfl, isDigits⟩, stops⟩⟩
    · exact ⟨rfl, Or.inl rfl⟩
  · exact ⟨rfl, Or.inl rfl⟩

theorem fraction_append {point rest : List Char} (isPoint : point = [] ∨ IsFraction point)
    (stops : StartsNoDigit rest) (noPoint : ∀ letter ∈ rest.head?, letter ≠ '.') :
    fraction (point ++ rest) = (point, rest) := by
  rcases isPoint with rfl | ⟨digits, rfl, isDigits⟩
  · rw [List.nil_append]
    unfold fraction
    split
    · exact absurd rfl (noPoint '.' rfl)
    · rfl
  · rw [List.cons_append, fraction, digits?_append isDigits stops]

theorem exponentSign_split (source : List Char) :
    source = (exponentSign source).1 ++ (exponentSign source).2 ∧
      ((exponentSign source).1 = [] ∨ (exponentSign source).1 = ['-'] ∨
        (exponentSign source).1 = ['+']) := by
  unfold exponentSign
  split
  · exact ⟨rfl, Or.inr (Or.inl rfl)⟩
  · exact ⟨rfl, Or.inr (Or.inr rfl)⟩
  · exact ⟨rfl, Or.inl rfl⟩

theorem exponentSign_append {front digits rest : List Char}
    (isSign : front = [] ∨ front = ['-'] ∨ front = ['+']) (isDigits : IsDigits digits) :
    exponentSign (front ++ (digits ++ rest)) = (front, digits ++ rest) := by
  rcases isSign with rfl | rfl | rfl
  · unfold exponentSign
    split
    · next equal => exact absurd equal (isDigits.ne_cons rfl)
    · next equal => exact absurd equal (isDigits.ne_cons rfl)
    · rfl
  · rfl
  · rfl

/-- Reading an exponent splits the source; an exponent that is there has all digits that follow. -/
theorem exponent_split (source : List Char) :
    source = (exponent source).1 ++ (exponent source).2 ∧
      ((exponent source).1 = [] ∨
        IsExponent (exponent source).1 ∧ StartsNoDigit (exponent source).2) := by
  unfold exponent
  split
  · exact ⟨rfl, Or.inl rfl⟩
  · next mark rest =>
    split
    · next isMark =>
      rw [Bool.or_eq_true, beq_iff_eq, beq_iff_eq] at isMark
      split
      · next digits after read =>
        obtain ⟨split, isDigits, stops⟩ := digits?_eq_some read
        obtain ⟨signSplit, isSign⟩ := exponentSign_split rest
        refine ⟨?_, Or.inr ⟨⟨mark, _, digits, rfl, isMark, isSign, isDigits⟩, stops⟩⟩
        rw [List.cons_append, List.append_assoc, ← split, ← signSplit]
      · exact ⟨rfl, Or.inl rfl⟩
    · exact ⟨rfl, Or.inl rfl⟩

/-- An exponent is read in front of whatever ends a number. -/
theorem exponent_append {power rest : List Char} (isPower : power = [] ∨ IsExponent power)
    (ends : EndsNumber rest) : exponent (power ++ rest) = (power, rest) := by
  rcases isPower with rfl | ⟨mark, front, digits, rfl, isMark, isSign, isDigits⟩
  · rw [List.nil_append]
    unfold exponent
    split
    · rfl
    · next letter others =>
      have notPart := (ends letter rfl).1
      split
      · next isMark =>
        rw [Bool.or_eq_true, beq_iff_eq, beq_iff_eq] at isMark
        rcases isMark with rfl | rfl <;> exact absurd notPart (by decide)
      · rfl
  · have marked : (mark == 'e' || mark == 'E') = true := by
      rw [Bool.or_eq_true, beq_iff_eq, beq_iff_eq]
      exact isMark
    rw [List.cons_append, List.append_assoc, exponent, if_pos marked,
      exponentSign_append isSign isDigits, digits?_append isDigits ends.startsNoDigit]

/-! ### Numbers -/

/-- Where no digit follows, a number is spoiled by what does not end it. -/
theorem any_spoilsNumber_eq_false_iff {rest : List Char} (noDigit : StartsNoDigit rest) :
    rest.head?.any spoilsNumber = false ↔ EndsNumber rest := by
  cases rest with
  | nil => simp [EndsNumber]
  | cons letter others =>
    have notDigit : letter.isDigit = false := noDigit letter rfl
    simp [EndsNumber, spoilsNumber, isNamePart_eq, notDigit, and_comm]

/-- What is read as a number is spelled as one, and nothing follows that would continue it. -/
theorem number?_eq_some {source after : List Char} {token : Token}
    (read : number? source = some (token, after)) :
    ∃ text, source = text ++ after ∧ Spells token text ∧ EndsNumber after := by
  unfold number? at read
  split at read
  · simp at read
  · next whole afterWhole readWhole =>
    obtain ⟨wholeSplit, isDigits, afterDigits⟩ := digits?_eq_some readWhole
    obtain ⟨signSplit, isSign⟩ := sign_split source
    obtain ⟨pointSplit, isPoint⟩ := fraction_split afterWhole
    obtain ⟨powerSplit, isPower⟩ := exponent_split (fraction afterWhole).2
    have isWhole : IsWhole ((sign source).1 ++ whole) := ⟨_, whole, rfl, isSign, isDigits⟩
    have afterPoint : StartsNoDigit (fraction afterWhole).2 := by
      rcases isPoint with none | ⟨-, stops⟩
      · rw [none, List.nil_append] at pointSplit
        rw [← pointSplit]
        exact afterDigits
      · exact stops
    have afterPower : StartsNoDigit (exponent (fraction afterWhole).2).2 := by
      rcases isPower with none | ⟨-, stops⟩
      · rw [none, List.nil_append] at powerSplit
        rw [← powerSplit]
        exact afterPoint
      · exact stops
    have whole_split : source = (sign source).1 ++ whole ++
        ((fraction afterWhole).1 ++ (exponent (fraction afterWhole).2).1) ++
          (exponent (fraction afterWhole).2).2 := by
      rw [List.append_assoc, List.append_assoc _ _ (exponent _).2, ← powerSplit, ← pointSplit,
        List.append_assoc, ← wholeSplit, ← signSplit]
    dsimp only at read
    split at read
    · simp at read
    · next clean =>
      rw [Bool.not_eq_true, any_spoilsNumber_eq_false_iff afterPower] at clean
      split at read
      · next plain =>
        rw [Bool.and_eq_true, List.isEmpty_iff, List.isEmpty_iff] at plain
        obtain ⟨rfl, rfl⟩ := Prod.mk.injEq .. ▸ Option.some.inj read
        refine ⟨_, whole_split, ⟨?_, ?_⟩, clean⟩
        · rw [String.toList_ofList, List.append_assoc _ _ (exponent _).1]
        · rw [plain.1, plain.2, List.append_nil, List.append_nil]
          exact isWhole
      · next notPlain =>
        rw [Bool.and_eq_true, List.isEmpty_iff, List.isEmpty_iff] at notPlain
        obtain ⟨rfl, rfl⟩ := Prod.mk.injEq .. ▸ Option.some.inj read
        refine ⟨_, whole_split, ⟨?_, ?_⟩, clean⟩
        · rw [String.toList_ofList, List.append_assoc _ _ (exponent _).1]
        · exact ⟨_, _, _, rfl, isWhole, isPoint.imp_right And.left, isPower.imp_right And.left,
            notPlain⟩

/-- A number of the grammar is read whole. -/
theorem number?_append {whole point power rest : List Char} (isWhole : IsWhole whole)
    (isPoint : point = [] ∨ IsFraction point) (isPower : power = [] ∨ IsExponent power)
    (ends : EndsNumber rest) :
    number? (whole ++ (point ++ power) ++ rest) =
      some (if point = [] ∧ power = [] then .int (String.ofList whole)
        else .float (String.ofList (whole ++ (point ++ power))), rest) := by
  obtain ⟨front, digits, rfl, isSign, isDigits⟩ := isWhole
  have afterPoint : ∀ letter ∈ (power ++ rest).head?, letter.isDigit = false ∧ letter ≠ '.' := by
    rcases isPower with rfl | ⟨mark, _, _, rfl, rfl | rfl, -, -⟩
    · intro letter isFirst
      exact ⟨ends.startsNoDigit letter isFirst, (ends letter isFirst).2⟩
    · simp
    · simp
  have afterWhole : StartsNoDigit (point ++ (power ++ rest)) := by
    rcases isPoint with rfl | ⟨_, rfl, -⟩
    · exact fun letter isFirst => (afterPoint letter isFirst).1
    · simp [StartsNoDigit]
  have source : front ++ digits ++ (point ++ power) ++ rest =
      front ++ (digits ++ (point ++ (power ++ rest))) := by
    simp only [List.append_assoc]
  have clean : rest.head?.any spoilsNumber = false :=
    (any_spoilsNumber_eq_false_iff ends.startsNoDigit).mpr ends
  rw [source, number?, sign_append isSign isDigits, digits?_append isDigits afterWhole]
  dsimp only
  rw [fraction_append isPoint (fun letter isFirst => (afterPoint letter isFirst).1)
    (fun letter isFirst => (afterPoint letter isFirst).2)]
  dsimp only
  rw [exponent_append isPower ends]
  dsimp only
  rw [clean, if_neg Bool.false_ne_true]
  by_cases plain : point = [] ∧ power = []
  · obtain ⟨rfl, rfl⟩ := plain
    simp
  · have notPlain : ¬(point.isEmpty && power.isEmpty) = true := by
      rw [Bool.and_eq_true, List.isEmpty_iff, List.isEmpty_iff]
      exact plain
    rw [if_neg notPlain, if_neg plain, List.append_assoc _ point power]

end SchemaAssembly.Grammar
