/-
This file proves that the text of a number is a number of the grammar: that of a whole number has
neither point nor exponent and tells the number, that of a double has a point or an exponent. So
the two kinds are never written alike. The digits of a double are those of a positive count from
which zeros at the end have been taken, so there is always one.
-/

import Mathlib.Data.List.TakeWhile
import SchemaAssembly.Json.Number
import SchemaAssembly.Proofs.Grammar.ConstantText

namespace SchemaAssembly

open Grammar

/-! ### Digits -/

theorem isDigits_toDigits (value : Nat) : IsDigits (Nat.toDigits 10 value) :=
  ⟨Nat.toDigits_ne_nil, fun _ member =>
    Nat.isDigit_of_mem_toDigits (by decide) (Nat.le_refl 10) member⟩

theorem isDigits_append {first second : List Char} (isDigits : IsDigits first)
    (all : ∀ letter ∈ second, letter.isDigit = true) : IsDigits (first ++ second) :=
  ⟨List.append_ne_nil_of_left_ne_nil isDigits.1 second,
    List.forall_mem_append.mpr ⟨isDigits.2, all⟩⟩

theorem isDigit_of_mem_replicate {count : Nat} {letter : Char}
    (member : letter ∈ List.replicate count '0') : letter.isDigit = true := by
  rw [(List.mem_replicate.mp member).2]
  rfl

/-- Zeros alone are the digits of zero. -/
theorem eq_zero_of_toDigits_zeros {value : Nat}
    (zeros : ∀ letter ∈ Nat.toDigits 10 value, letter = '0') : value = 0 := by
  have read := Nat.ofDigitChars_ten_toDigits (n := value)
  rw [List.eq_replicate_iff.mpr ⟨rfl, zeros⟩, Nat.ofDigitChars_replicate_zero, Nat.mul_zero] at read
  exact read.symm

/-- Zeros at the end of the digits of a positive number may be left out. -/
theorem isDigits_without_zeros {value : Nat} (positive : 0 < value) :
    IsDigits ((Nat.toDigits 10 value).reverse.dropWhile (· == '0')).reverse := by
  constructor
  · rw [ne_eq, List.reverse_eq_nil_iff, List.dropWhile_eq_nil_iff]
    intro zeros
    refine Nat.ne_of_gt positive (eq_zero_of_toDigits_zeros fun letter member => ?_)
    exact beq_iff_eq.mp (zeros letter (List.mem_reverse.mpr member))
  · intro letter member
    rw [List.mem_reverse] at member
    have inDigits := (List.dropWhile_suffix _).subset member
    exact (isDigits_toDigits value).2 letter (List.mem_reverse.mp inDigits)

/-! ### Decimals -/

namespace Magnitude

/-- Zero reads back as no other magnitude. -/
theorem readsBack_zero {magnitude : Magnitude} (nonzero : magnitude.isZero = false) (power : Int) :
    magnitude.readsBack 0 power = false := by
  have positive : 0 < magnitude.significand :=
    Nat.pos_of_ne_zero fun isZero => by simp [Magnitude.isZero, isZero] at nonzero
  have low : 0 < magnitude.quarterBounds.1 := by
    rw [quarterBounds]
    dsimp only
    split <;> omega
  have unit : 0 < Nat.pow 2 (magnitude.exponent - 2).toNat * Nat.pow 10 (-power).toNat :=
    Nat.mul_pos (Nat.pow_pos (by decide)) (Nat.pow_pos (by decide))
  have product := Nat.mul_pos low unit
  rw [readsBack, Nat.zero_mul, Nat.zero_mul]
  dsimp only
  split
  · rw [decide_eq_false (Nat.not_le_of_lt product), Bool.false_and]
  · rw [decide_eq_false (Nat.not_lt_of_le (Nat.zero_le _)), Bool.false_and]

theorem div_le_roundedQuotient (numerator denominator : Nat) :
    numerator / denominator ≤ roundedQuotient numerator denominator := by
  unfold roundedQuotient
  dsimp only
  split
  · exact Nat.le_succ _
  · exact Nat.le_refl _

theorem pos_of_onGrid {magnitude : Magnitude} (nonzero : magnitude.isZero = false) {power : Int}
    {count : Nat} (found : magnitude.onGrid power = some count) : 0 < count := by
  have pos_of_readsBack {below : Nat} (reads : magnitude.readsBack below power = true) :
      0 < below := by
    refine Nat.pos_of_ne_zero fun isZero => ?_
    rw [isZero, readsBack_zero nonzero] at reads
    cases reads
  unfold onGrid at found
  dsimp only at found
  split at found
  · next reads _ =>
    cases found
    exact Nat.lt_of_lt_of_le (pos_of_readsBack reads) (div_le_roundedQuotient _ _)
  · next reads _ =>
    cases found
    exact pos_of_readsBack reads
  · cases found
    exact Nat.succ_pos _
  · cases found

theorem isDigits_shortest (magnitude : Magnitude) : IsDigits magnitude.shortest.digits := by
  have zero : IsDigits ['0'] := isDigits_iff.mpr (by decide)
  rw [shortest]
  cases nonzero : magnitude.isZero with
  | true => exact zero
  | false =>
    rw [if_neg Bool.false_ne_true]
    dsimp only
    split
    · next count power found =>
      obtain ⟨grid, -, onGrid⟩ := List.exists_of_findSome?_eq_some found
      obtain ⟨_, isCount, same⟩ := Option.map_eq_some_iff.mp onGrid
      obtain ⟨rfl, rfl⟩ := Prod.mk.inj same
      exact isDigits_without_zeros (pos_of_onGrid nonzero isCount)
    · exact zero

end Magnitude

namespace DecimalLayout

/-- A decimal in positional form has a point with digits on both sides. -/
theorem exists_positional {digits : List Char} (isDigits : IsDigits digits) (power : Int) :
    ∃ whole fraction, positional digits power = whole ++ '.' :: fraction ∧
      IsDigits whole ∧ IsDigits fraction := by
  have zero : IsDigits ['0'] := isDigits_iff.mpr (by decide)
  rw [positional]
  split
  · refine ⟨['0'], _, rfl, zero, List.append_ne_nil_of_right_ne_nil _ isDigits.1, ?_⟩
    exact List.forall_mem_append.mpr ⟨fun _ => isDigit_of_mem_replicate, isDigits.2⟩
  · dsimp only
    refine ⟨_, _, rfl, ?_, ?_⟩
    · refine isDigits_append ⟨?_, fun letter member => ?_⟩ fun _ => isDigit_of_mem_replicate
      · rw [ne_eq, List.take_eq_nil_iff, not_or]
        exact ⟨Nat.succ_ne_zero _, isDigits.1⟩
      · exact isDigits.2 letter (List.mem_of_mem_take member)
    · split
      · exact zero
      · next longer =>
        refine ⟨?_, fun letter member => isDigits.2 letter (List.mem_of_mem_drop member)⟩
        rw [ne_eq, List.drop_eq_nil_iff]
        exact longer

/-- A decimal in the form with an exponent has one digit, perhaps a fraction, and the exponent. -/
theorem exists_scientific {digits : List Char} (isDigits : IsDigits digits) (power : Int) :
    ∃ whole point exponent, scientific digits power = whole ++ (point ++ exponent) ∧
      IsDigits whole ∧ (point = [] ∨ IsFraction point) ∧ IsExponent exponent := by
  refine ⟨digits.take 1, if digits.length ≤ 1 then [] else '.' :: digits.drop 1,
    'e' :: ([if power < 0 then '-' else '+'] ++ Nat.toDigits 10 power.natAbs),
    List.append_assoc _ _ _, ⟨?_, fun letter member => ?_⟩, ?_, 'e', _, _, rfl, Or.inl rfl, ?_,
    isDigits_toDigits power.natAbs⟩
  · rw [ne_eq, List.take_eq_nil_iff, not_or]
    exact ⟨Nat.one_ne_zero, isDigits.1⟩
  · exact isDigits.2 letter (List.mem_of_mem_take member)
  · split
    · exact Or.inl rfl
    · next longer =>
      refine Or.inr ⟨_, rfl, ?_,
        fun letter member => isDigits.2 letter (List.mem_of_mem_drop member)⟩
      rw [ne_eq, List.drop_eq_nil_iff]
      exact longer
  · split
    · exact Or.inr (Or.inl rfl)
    · exact Or.inr (Or.inr rfl)

/-- The text of a decimal, behind a sign or not, is a float. -/
theorem isFloat_write {digits sign : List Char} (isDigits : IsDigits digits)
    (isSign : sign = [] ∨ sign = ['-']) (layout : DecimalLayout) (exponent : Int) :
    IsFloat (sign ++ layout.write ⟨digits, exponent⟩) := by
  rw [write]
  split
  · obtain ⟨whole, fraction, split, isWhole, isFraction⟩ := exists_positional isDigits exponent
    refine ⟨sign ++ whole, '.' :: fraction, [], ?_, ⟨sign, whole, rfl, isSign, isWhole⟩,
      Or.inr ⟨fraction, rfl, isFraction⟩, Or.inl rfl, fun none => List.cons_ne_nil _ _ none.1⟩
    rw [split, List.append_nil, List.append_assoc]
  · obtain ⟨whole, point, power, split, isWhole, isPoint, isPower⟩ :=
      exists_scientific isDigits exponent
    refine ⟨sign ++ whole, point, power, ?_, ⟨sign, whole, rfl, isSign, isWhole⟩, isPoint,
      Or.inr isPower, ?_⟩
    · rw [split, List.append_assoc]
    · obtain ⟨mark, front, exponentDigits, rfl, -⟩ := isPower
      exact fun none => List.cons_ne_nil _ _ none.2

end DecimalLayout

/-! ### Numbers -/

namespace Json.Number

/-- The sign of a number as it is written. -/
theorem isSign_toList (negative : Prop) [Decidable negative] :
    (if negative then "-" else "").toList = [] ∨
      (if negative then "-" else "").toList = ['-'] := by
  split
  · exact Or.inr rfl
  · exact Or.inl rfl

theorem toList_text_whole (value : Int) :
    (text (.whole value)).toList =
      (if value < 0 then "-" else "").toList ++ Nat.toDigits 10 value.natAbs := by
  rw [text, String.toList_append, Nat.toList_repr]

theorem isWhole_text (value : Int) : IsWhole (text (.whole value)).toList :=
  ⟨_, _, toList_text_whole value, isSign_toList _, isDigits_toDigits value.natAbs⟩

theorem isFloat_text (value : Double) : IsFloat (text (.double value)).toList := by
  rw [text, String.toList_append, String.toList_ofList]
  exact layout.isFloat_write value.magnitude.isDigits_shortest (isSign_toList _) _

/-- Numbers of different kinds are never written alike. -/
theorem any_isFloatMark_text (number : Number) :
    number.text.toList.any isFloatMark = number.isDouble := by
  cases number with
  | whole value => exact (isWhole_text value).any_isFloatMark
  | double value => exact (isFloat_text value).any_isFloatMark

theorem toDigits_injective {first second : Nat}
    (same : Nat.toDigits 10 first = Nat.toDigits 10 second) : first = second := by
  have read := congrArg (fun digits => Nat.ofDigitChars 10 digits 0) same
  simpa only [Nat.ofDigitChars_ten_toDigits] using read

theorem toDigits_ne_minus_cons (value : Nat) (rest : List Char) :
    Nat.toDigits 10 value ≠ '-' :: rest := by
  rw [← List.append_nil (Nat.toDigits 10 value)]
  exact (isDigits_toDigits value).ne_cons rfl

/-- The text of a whole number tells the number. -/
theorem eq_of_text_whole {first second : Int} (same : text (.whole first) = text (.whole second)) :
    first = second := by
  have letters := congrArg String.toList same
  rw [toList_text_whole, toList_text_whole] at letters
  by_cases firstNegative : first < 0
  · by_cases secondNegative : second < 0
    · rw [if_pos firstNegative, if_pos secondNegative] at letters
      have sizes := toDigits_injective (List.append_cancel_left letters)
      omega
    · rw [if_pos firstNegative, if_neg secondNegative] at letters
      exact absurd letters.symm (toDigits_ne_minus_cons _ _)
  · by_cases secondNegative : second < 0
    · rw [if_neg firstNegative, if_pos secondNegative] at letters
      exact absurd letters (toDigits_ne_minus_cons _ _)
    · rw [if_neg firstNegative, if_neg secondNegative] at letters
      have sizes := toDigits_injective (List.append_cancel_left letters)
      omega

end Json.Number

end SchemaAssembly
