/-
This file proves what the tables of cases say about the letters of ASCII: they change between two
forms of one letter each, and no character has a small form that begins with a capital of ASCII. Of
all characters it proves that a small form holds no capital, unless it is the character itself.
-/

import SchemaAssembly.Text.Case

namespace SchemaAssembly.Text

theorem toNat_ofNat_of_isValidChar {code : Nat} (valid : code.isValidChar) :
    (Char.ofNat code).toNat = code := by
  have bound : code < UInt32.size := by
    have size : UInt32.size = 4294967296 := rfl
    rcases valid with below | above <;> omega
  rw [Char.ofNat, dif_pos valid]
  exact UInt32.toNat_ofNatLT

/-- The capitals of ASCII follow each other from A to Z. -/
theorem isUpper_iff {letter : Char} :
    letter.isUpper = true ↔ 65 ≤ letter.toNat ∧ letter.toNat ≤ 90 := by
  unfold Char.isUpper
  rw [decide_eq_true_eq]
  rfl

theorem isLower_iff {letter : Char} :
    letter.isLower = true ↔ 97 ≤ letter.toNat ∧ letter.toNat ≤ 122 := by
  unfold Char.isLower
  rw [Bool.and_eq_true, decide_eq_true_eq, decide_eq_true_eq]
  rfl

/-- A letter of ASCII in the other case. -/
def otherCase (letter : Char) : Char :=
  if letter.isUpper then letter.toLower else letter.toUpper

/-- The tables agree with ASCII. -/
theorem raised_ofNat : ∀ code < 128,
    ((Char.ofNat code).isLower = true →
      raised (Char.ofNat code) = [otherCase (Char.ofNat code)] ∧
        (otherCase (Char.ofNat code)).isUpper = true) ∧
    ((Char.ofNat code).isUpper = true →
      raised (Char.ofNat code) = [Char.ofNat code] ∧ isCapital (Char.ofNat code) = true ∧
        (otherCase (Char.ofNat code)).isLower = true ∧
        otherCase (otherCase (Char.ofNat code)) = Char.ofNat code) := by
  decide +kernel

theorem raised_of_isLower {letter : Char} (small : letter.isLower = true) :
    raised letter = [otherCase letter] ∧ (otherCase letter).isUpper = true := by
  have bound : letter.toNat < 128 := Nat.lt_of_le_of_lt (isLower_iff.mp small).2 (by decide)
  have ofCode := (raised_ofNat letter.toNat bound).1
  rw [Char.ofNat_toNat] at ofCode
  exact ofCode small

/-- A capital of ASCII stays as it is when it is raised, and is the other case of a small letter. -/
theorem raised_of_isUpper {letter : Char} (capital : letter.isUpper = true) :
    raised letter = [letter] ∧ isCapital letter = true ∧ (otherCase letter).isLower = true ∧
      otherCase (otherCase letter) = letter := by
  have bound : letter.toNat < 128 := Nat.lt_of_le_of_lt (isUpper_iff.mp capital).2 (by decide)
  have ofCode := (raised_ofNat letter.toNat bound).2
  rw [Char.ofNat_toNat] at ofCode
  exact ofCode capital

/-- No shift leads to a capital of ASCII. -/
theorem loweringShifts_apart : ∀ shift ∈ loweringShifts,
    shift.last + shift.distance < 65 ∨ 90 < shift.first + shift.distance := by
  decide +kernel

/-- No small form begins with a capital of ASCII, whichever character it is the small form of. The
capitals of ASCII themselves are shifted by the first entry of the table. -/
theorem exists_lowered_eq_cons (letter : Char) :
    ∃ small others, lowered letter = small :: others ∧ small.isUpper = false := by
  unfold lowered recased
  split
  · next spread found =>
    have only := List.mem_of_find?_eq_some found
    rw [loweringSpreads, List.mem_singleton] at only
    subst only
    exact ⟨'i', ['\u0307'], rfl, rfl⟩
  · split
    · next shift found =>
      have apart := loweringShifts_apart shift (List.mem_of_find?_eq_some found)
      have holds := List.find?_some found
      rw [Run.holds, Bool.and_eq_true, Bool.and_eq_true, decide_eq_true_eq,
        decide_eq_true_eq] at holds
      refine ⟨_, [], rfl, ?_⟩
      rw [Bool.eq_false_iff, ne_eq, isUpper_iff]
      by_cases valid : ((letter.toNat : Int) + shift.distance).toNat.isValidChar
      · rw [toNat_ofNat_of_isValidChar valid]
        omega
      · rw [Char.ofNat, dif_neg valid]
        decide
    · next unshifted =>
      refine ⟨letter, [], rfl, ?_⟩
      rw [Bool.eq_false_iff, ne_eq, isUpper_iff]
      rintro ⟨low, high⟩
      have noShift := List.find?_eq_none.mp unshifted ⟨⟨0x41, 0x5A, 1⟩, 32⟩ List.mem_cons_self
      simp [Run.holds, low, high, Nat.mod_one] at noShift

/-! ### Small forms hold no capitals -/

/-- The run to whose members a shift leads. -/
def Shift.landing (shift : Shift) : Run :=
  ⟨(shift.first + shift.distance).toNat, (shift.last + shift.distance).toNat, shift.step⟩

/-- Whether a run is seen to have no member in common with another: it ends in front of the other,
starts behind it, or has one or every second member and lies between the members of the other. -/
def Run.isApart (run other : Run) : Bool :=
  Nat.blt run.last other.first || (Nat.blt other.last run.first ||
    (Nat.beq other.step 2 && (Nat.beq run.step 2 || Nat.beq run.first run.last) &&
      Nat.beq ((run.first + other.first) % 2) 1))

theorem isApart_landing :
    loweringShifts.all (fun shift => capitals.all shift.landing.isApart) = true := by
  decide +kernel

theorem nonneg_loweringShifts :
    ∀ shift ∈ loweringShifts, 0 ≤ (shift.first : Int) + shift.distance := by
  decide +kernel

theorem Run.holds_iff {run : Run} {code : Nat} :
    run.holds code = true ↔
      run.first ≤ code ∧ code ≤ run.last ∧ (code - run.first) % run.step = 0 := by
  rw [holds, Bool.and_eq_true, Bool.and_eq_true, decide_eq_true_eq, decide_eq_true_eq, beq_iff_eq,
    and_assoc]

theorem Run.isApart_iff {run other : Run} :
    run.isApart other = true ↔
      run.last < other.first ∨ other.last < run.first ∨
        (other.step = 2 ∧ (run.step = 2 ∨ run.first = run.last)) ∧
          (run.first + other.first) % 2 = 1 := by
  rw [isApart, Bool.or_eq_true, Bool.or_eq_true, Bool.and_eq_true, Bool.and_eq_true,
    Bool.or_eq_true, Nat.blt_eq, Nat.blt_eq, Nat.beq_eq, Nat.beq_eq, Nat.beq_eq, Nat.beq_eq]

/-- A character is not moved into a run that is apart from where its shift leads. -/
theorem Shift.holds_eq_false {shift : Shift} {run : Run}
    (nonneg : 0 ≤ (shift.first : Int) + shift.distance)
    (apart : shift.landing.isApart run = true) {code : Nat} (moved : shift.holds code = true) :
    run.holds (code + shift.distance).toNat = false := by
  rw [Bool.eq_false_iff, ne_eq, Run.holds_iff]
  rintro ⟨low, high, steps⟩
  obtain ⟨aboveFirst, belowLast, shiftSteps⟩ := Run.holds_iff.mp moved
  rw [Run.isApart_iff, landing] at apart
  dsimp only at apart
  obtain before | behind | ⟨⟨isTwo, everySecond | isOne⟩, odd⟩ := apart
  · omega
  · omega
  · rw [isTwo] at steps
    rw [everySecond] at shiftSteps
    omega
  · rw [isTwo] at steps
    omega

/-- A character is no capital if no run of the table holds it. -/
theorem isCapital_ofNat_eq_false {code : Nat}
    (noRun : ∀ run ∈ capitals, run.holds code = false) : isCapital (Char.ofNat code) = false := by
  by_cases valid : code.isValidChar
  · rw [isCapital, toNat_ofNat_of_isValidChar valid, List.any_eq_false]
    intro run member
    rw [noRun run member]
    exact Bool.false_ne_true
  · rw [Char.ofNat, dif_neg valid]
    decide +kernel

/-- The small form of a character is the character itself, or a text without capitals. -/
theorem lowered_eq_self_or_isCapital_eq_false (letter : Char) :
    lowered letter = [letter] ∨
      lowered letter ≠ [] ∧ ∀ small ∈ lowered letter, isCapital small = false := by
  unfold lowered recased
  split
  · next spread found =>
    have only := List.mem_of_find?_eq_some found
    rw [loweringSpreads, List.mem_singleton] at only
    subst only
    have letterIsSmall : isCapital 'i' = false := by decide +kernel
    have accentIsSmall : isCapital '\u0307' = false := by decide +kernel
    refine Or.inr ⟨List.cons_ne_nil _ _, List.forall_mem_cons.mpr ⟨letterIsSmall, ?_⟩⟩
    exact List.forall_mem_singleton.mpr accentIsSmall
  · split
    · next shift found =>
      refine Or.inr ⟨List.cons_ne_nil _ _, List.forall_mem_singleton.mpr ?_⟩
      have member := List.mem_of_find?_eq_some found
      have apart := List.all_eq_true.mp isApart_landing shift member
      have moved := List.find?_some found
      refine isCapital_ofNat_eq_false fun run isRun => ?_
      exact Shift.holds_eq_false (nonneg_loweringShifts shift member)
        (List.all_eq_true.mp apart run isRun) moved
    · exact Or.inl rfl

end SchemaAssembly.Text
