import Mathlib.Data.List.Induction
import Mathlib.Data.Rat.Init
import Mathlib.Tactic.NormNum
import TeenyC.Proofs.Compile.Expression
import TeenyC.Proofs.Token.Grammar
import TeenyC.Compile.Program

/-!
# Numbers in the C text

A number is written into the C text as it stands in the source.  There the same characters are a
constant of C: with a point they are read in base ten, and without one a zero in front makes them
octal.  A number with a point and a number without a zero in front therefore keep their value, as
far as C has numbers of that size.  Any other number keeps it up to seven and no further.
-/

namespace TeenyC

/-! ## Values -/

/-- The number with these digits before and behind its point, in base ten. -/
def fixedPoint (whole fraction : List Char) : ℚ :=
  Nat.ofDigitChars 10 whole 0 + Nat.ofDigitChars 10 fraction 0 / 10 ^ fraction.length

/-- The value of a numeral of Teeny, which is in base ten. -/
def decimalValue (text : String) : ℚ :=
  fixedPoint (text.toList.takeWhile (· != '.')) (text.toList.dropWhile (· != '.')).tail

/-- The values for which an implementation of C has a type: for an integer constant in base ten a
signed one, for an octal constant also an unsigned one. -/
structure CRanges where
  decimal : Nat → Prop
  octal : Nat → Prop
  floating : ℚ → Prop
  decimal_least : ∀ n < 2 ^ 63, decimal n
  octal_least : ∀ n < 2 ^ 64, octal n
  floating_least : ∀ value, 0 ≤ value → value ≤ 10 ^ 37 → floating value

/-- The digits of an octal constant. -/
def IsOctalDigit (c : Char) : Prop :=
  '0' ≤ c ∧ c ≤ '7'

instance (c : Char) : Decidable (IsOctalDigit c) :=
  inferInstanceAs (Decidable (_ ∧ _))

/-- The constants of C99 in which no letter stands, with their values.  Letters are in suffixes,
exponents and hexadecimal constants only. -/
inductive CConstant (ranges : CRanges) : List Char → ℚ → Prop
  | decimal {digits : List Char} (isDigits : IsDigits digits) (starts : digits.head? ≠ some '0')
      (inRange : ranges.decimal (Nat.ofDigitChars 10 digits 0)) :
      CConstant ranges digits (Nat.ofDigitChars 10 digits 0)
  | octal {digits : List Char} (isOctal : ∀ c ∈ digits, IsOctalDigit c)
      (inRange : ranges.octal (Nat.ofDigitChars 8 digits 0)) :
      CConstant ranges ('0' :: digits) (Nat.ofDigitChars 8 digits 0)
  | floating {whole fraction : List Char} (isDigits : IsDigits (whole ++ fraction))
      (inRange : ranges.floating (fixedPoint whole fraction)) :
      CConstant ranges (whole ++ '.' :: fraction) (fixedPoint whole fraction)

/-! ## Octal and decimal -/

theorem ofDigitChars_concat (base : Nat) (digits : List Char) (c : Char) :
    Nat.ofDigitChars base (digits ++ [c]) 0 =
      base * Nat.ofDigitChars base digits 0 + (c.toNat - '0'.toNat) := by
  rw [Nat.ofDigitChars_append, Nat.ofDigitChars_cons, Nat.ofDigitChars_nil]

theorem octal_le_decimal (digits : List Char) :
    Nat.ofDigitChars 8 digits 0 ≤ Nat.ofDigitChars 10 digits 0 := by
  induction digits using List.reverseRecOn with
  | nil => exact le_rfl
  | append_singleton digits c inductionHypothesis =>
      rw [ofDigitChars_concat, ofDigitChars_concat]
      omega

/-- A number is at least as large as each of its digits. -/
theorem digit_le_decimal {digits : List Char} {c : Char} (isIn : c ∈ digits) :
    c.toNat - '0'.toNat ≤ Nat.ofDigitChars 10 digits 0 := by
  induction digits using List.reverseRecOn with
  | nil => contradiction
  | append_singleton digits last inductionHypothesis =>
      rw [ofDigitChars_concat]
      rcases List.mem_append.mp isIn with before | isLast
      · have smaller := inductionHypothesis before
        omega
      · rw [List.mem_singleton.mp isLast]
        omega

theorem isOctalDigit_iff {c : Char} (isDigit : c.isDigit = true) :
    IsOctalDigit c ↔ c.toNat - '0'.toNat ≤ 7 := by
  have range : 48 ≤ c.toNat ∧ c.toNat ≤ 57 := Char.isDigit_iff_toNat.mp isDigit
  simp only [IsOctalDigit, Char.le_def, UInt32.le_iff_toNat_le]
  change 48 ≤ c.toNat ∧ c.toNat ≤ 55 ↔ c.toNat - 48 ≤ 7
  omega

/-- Octal digits have the same value in base eight and in base ten exactly if that is the value of
one of them: any digit in front of the last one counts for more in base ten. -/
theorem octal_eq_decimal_iff_of_octal {digits : List Char}
    (isDigit : ∀ c ∈ digits, c.isDigit = true) (isOctal : ∀ c ∈ digits, IsOctalDigit c) :
    Nat.ofDigitChars 8 digits 0 = Nat.ofDigitChars 10 digits 0 ↔
      Nat.ofDigitChars 10 digits 0 ≤ 7 := by
  cases digits using List.reverseRecOn with
  | nil => simp
  | append_singleton digits last =>
      have isIn : last ∈ digits ++ [last] := List.mem_append_right _ List.mem_cons_self
      have lastSmall := (isOctalDigit_iff (isDigit last isIn)).mp (isOctal last isIn)
      have before := octal_le_decimal digits
      rw [ofDigitChars_concat, ofDigitChars_concat]
      omega

theorem octal_eq_decimal_iff {digits : List Char} (isDigit : ∀ c ∈ digits, c.isDigit = true) :
    (∀ c ∈ digits, IsOctalDigit c) ∧
        Nat.ofDigitChars 8 digits 0 = Nat.ofDigitChars 10 digits 0 ↔
      Nat.ofDigitChars 10 digits 0 ≤ 7 := by
  constructor
  · rintro ⟨isOctal, same⟩
    exact (octal_eq_decimal_iff_of_octal isDigit isOctal).mp same
  · intro small
    have isOctal : ∀ c ∈ digits, IsOctalDigit c := fun c isIn =>
      (isOctalDigit_iff (isDigit c isIn)).mpr ((digit_le_decimal isIn).trans small)
    exact ⟨isOctal, (octal_eq_decimal_iff_of_octal isDigit isOctal).mpr small⟩

/-! ## Numerals as constants -/

theorem decimalValue_of_point {text : String} {whole fraction : List Char}
    (spelled : text.toList = whole ++ '.' :: fraction) (isWhole : '.' ∉ whole) :
    decimalValue text = fixedPoint whole fraction := by
  have before : ∀ c ∈ whole, (c != '.') = true := by
    intro c isIn
    exact bne_iff_ne.mpr fun isPoint => isWhole (isPoint ▸ isIn)
  have stops : Stops (· != '.') ('.' :: fraction) := by
    intro c isHead
    cases isHead
    rfl
  rw [decimalValue, spelled, takeWhile_append_of_stops before stops,
    dropWhile_append_of_stops before stops, List.tail_cons]

theorem decimalValue_of_digits {text : String} (noPoint : '.' ∉ text.toList) :
    decimalValue text = Nat.ofDigitChars 10 text.toList 0 := by
  have before : ∀ c ∈ text.toList, (c != '.') = true := by
    intro c isIn
    exact bne_iff_ne.mpr fun isPoint => noPoint (isPoint ▸ isIn)
  rw [decimalValue, List.takeWhile_eq_self_iff.mpr before, List.dropWhile_eq_nil_iff.mpr before]
  simp [fixedPoint]

variable {ranges : CRanges} {value : ℚ}

/-- A constant with a point has the value that Teeny reads. -/
theorem CConstant.of_point {text : String} (constant : CConstant ranges text.toList value)
    (hasPoint : '.' ∈ text.toList) : value = decimalValue text ∧ ranges.floating value := by
  generalize spelled : text.toList = characters at constant
  rw [spelled] at hasPoint
  cases constant with
  | decimal isDigits => exact absurd hasPoint (Lexeme.point_not_mem isDigits)
  | octal isOctal =>
      rcases List.mem_cons.mp hasPoint with isZero | isIn
      · contradiction
      · exact absurd (isOctal '.' isIn) (by decide)
  | @floating whole fraction isDigits inRange =>
      have isWhole : '.' ∉ whole := fun isIn =>
        Lexeme.point_not_mem isDigits (List.mem_append_left _ isIn)
      exact ⟨(decimalValue_of_point spelled isWhole).symm, inRange⟩

/-- A constant without a point is octal exactly if it starts with a zero. -/
theorem CConstant.of_digits {digits : List Char} (constant : CConstant ranges digits value)
    (noPoint : '.' ∉ digits) :
    (digits.head? ≠ some '0' ∧ value = Nat.ofDigitChars 10 digits 0 ∧
        ranges.decimal (Nat.ofDigitChars 10 digits 0)) ∨
      ∃ others, digits = '0' :: others ∧ (∀ c ∈ others, IsOctalDigit c) ∧
        value = Nat.ofDigitChars 8 others 0 := by
  cases constant with
  | decimal _ starts inRange => exact .inl ⟨starts, rfl, inRange⟩
  | octal isOctal => exact .inr ⟨_, rfl, isOctal, rfl⟩
  | floating => exact absurd (List.mem_append_right _ List.mem_cons_self) noPoint

variable {text : String}

theorem cConstant_point_iff (isNumeral : IsNumeral text) (hasPoint : '.' ∈ text.toList) :
    CConstant ranges text.toList (decimalValue text) ↔ ranges.floating (decimalValue text) := by
  constructor
  · exact fun constant => (constant.of_point hasPoint).2
  · rcases isNumeral with isDigits | ⟨whole, fraction, spelled, isWhole, isFraction⟩
    · exact absurd hasPoint (Lexeme.point_not_mem isDigits)
    · rw [decimalValue_of_point spelled (Lexeme.point_not_mem isWhole), spelled]
      apply CConstant.floating
      refine ⟨List.append_ne_nil_of_left_ne_nil isWhole.1 _, ?_⟩
      exact List.forall_mem_append.mpr ⟨isWhole.2, isFraction.2⟩

theorem IsNumeral.isDigits (isNumeral : IsNumeral text) (noPoint : '.' ∉ text.toList) :
    IsDigits text.toList := by
  rcases isNumeral with isDigits | ⟨whole, fraction, spelled, _⟩
  · exact isDigits
  · rw [spelled] at noPoint
    exact absurd (List.mem_append_right _ List.mem_cons_self) noPoint

theorem cConstant_decimal_iff (isNumeral : IsNumeral text) (noPoint : '.' ∉ text.toList)
    (noZero : text.toList.head? ≠ some '0') :
    CConstant ranges text.toList (decimalValue text) ↔
      ranges.decimal (Nat.ofDigitChars 10 text.toList 0) := by
  constructor
  · intro constant
    rcases constant.of_digits noPoint with ⟨_, _, inRange⟩ | ⟨others, starts, _⟩
    · exact inRange
    · rw [starts] at noZero
      exact absurd rfl noZero
  · intro inRange
    rw [decimalValue_of_digits noPoint]
    exact .decimal (isNumeral.isDigits noPoint) noZero inRange

theorem cConstant_octal_iff (isNumeral : IsNumeral text) (noPoint : '.' ∉ text.toList)
    (zero : text.toList.head? = some '0') :
    CConstant ranges text.toList (decimalValue text) ↔ decimalValue text ≤ 7 := by
  obtain ⟨digits, spelled⟩ := List.head?_eq_some_iff.mp zero
  have isDigits := isNumeral.isDigits noPoint
  rw [spelled] at isDigits
  have value : decimalValue text = Nat.ofDigitChars 10 digits 0 := by
    rw [decimalValue_of_digits noPoint, spelled, Nat.ofDigitChars_cons, Nat.sub_self]
  have keeps := octal_eq_decimal_iff (List.forall_mem_cons.mp isDigits.2).2
  rw [value, show (7 : ℚ) = (7 : Nat) from rfl, Nat.cast_le, ← keeps, spelled]
  constructor
  · intro constant
    rw [spelled] at noPoint
    rcases constant.of_digits noPoint with ⟨noZero, _⟩ | ⟨others, same, isOctal, sameValue⟩
    · exact absurd rfl noZero
    · obtain ⟨_, rfl⟩ := List.cons.inj same
      exact ⟨isOctal, (Nat.cast_inj.mp sameValue).symm⟩
  · rintro ⟨isOctal, same⟩
    have small := keeps.mp ⟨isOctal, same⟩
    rw [← same]
    exact .octal isOctal (ranges.octal_least _ (by omega))

/-! ## What is written for a number -/

theorem Rule.primary_number {session : Session} {token : Token} (here : session.current = token)
    (isNumber : token.kind = .number) :
    Rule.primary session = Rule.shift (session.write token.text) := by
  subst here
  simp only [primary, get_bind, isNumber, write_bind]

/-- The text written for a number that the lexer reads is the text of the token.  As a constant of
C it has the value of the number in base ten exactly in these cases: with a point and without a
zero in front, if C has a number of that size, and else if the value is that of an octal digit. -/
theorem number_keeps_value_iff {lexer after : Lexer} {token : Token}
    (reads : lexer.next = .ok token after) (isNumber : token.kind = .number) (ranges : CRanges) :
    (∀ session : Session, session.current = token →
        Rule.primary session = Rule.shift (session.write token.text)) ∧
      ('.' ∈ token.text.toList →
        (CConstant ranges token.text.toList (decimalValue token.text) ↔
          ranges.floating (decimalValue token.text))) ∧
      ('.' ∉ token.text.toList → token.text.toList.head? ≠ some '0' →
        (CConstant ranges token.text.toList (decimalValue token.text) ↔
          ranges.decimal (Nat.ofDigitChars 10 token.text.toList 0))) ∧
      ('.' ∉ token.text.toList → token.text.toList.head? = some '0' →
        (CConstant ranges token.text.toList (decimalValue token.text) ↔
          decimalValue token.text ≤ 7)) := by
  have wellFormed := (Lexer.starts_of_next (Lexer.inside_of_next reads) reads).1.wellFormed
  have isNumeral := wellFormed.isNumeral isNumber
  exact ⟨fun session here => Rule.primary_number here isNumber, cConstant_point_iff isNumeral,
    cConstant_decimal_iff isNumeral, cConstant_octal_iff isNumeral⟩

theorem number_keeps_value_iff_seven :
    ∃ after, (Lexer.ofString "007").next = .ok ⟨.number, "007"⟩ after ∧
      ∀ ranges, CConstant ranges "007".toList 7 := by
  have reads : (Lexer.ofString "007").next = .ok ⟨.number, "007"⟩ ⟨['\n'], 3, 0, 4⟩ := rfl
  have value : decimalValue "007" = 7 := decimalValue_of_digits (by decide)
  refine ⟨_, reads, fun ranges => ?_⟩
  obtain ⟨_, _, _, octal⟩ := number_keeps_value_iff reads rfl ranges
  rw [value] at octal
  exact (octal (by decide) rfl).mpr le_rfl

/-- With a zero in front, `010` is eight in C, and `08` is no constant at all. -/
theorem number_changes_value :
    compile "print 010" =
        .ok ⟨"#include <stdio.h>\nint main() \x7b\nprintf(\"%.2f\\n\", (float) (010));\n" ++
          "return 0;\n\x7d\n", ⟨[], []⟩⟩ ∧
      decimalValue "010" = 10 ∧ (∀ ranges value, CConstant ranges "010".toList value ↔ value = 8) ∧
      decimalValue "08" = 8 ∧ ∀ ranges value, ¬ CConstant ranges "08".toList value := by
  refine ⟨by decide +kernel, decimalValue_of_digits (by decide), fun ranges value => ⟨?_, ?_⟩,
    decimalValue_of_digits (by decide), fun ranges value constant => ?_⟩
  · intro constant
    rcases constant.of_digits (by decide) with ⟨noZero, _⟩ | ⟨others, same, _, rfl⟩
    · exact absurd rfl noZero
    · obtain ⟨_, rfl⟩ := List.cons.inj same
      rfl
  · rintro rfl
    have isOctal : ∀ c ∈ ['1', '0'], IsOctalDigit c :=
      List.forall_mem_cons.mpr ⟨by decide, List.forall_mem_singleton.mpr (by decide)⟩
    exact .octal isOctal (ranges.octal_least _ (by decide))
  · rcases constant.of_digits (by decide) with ⟨noZero, _⟩ | ⟨others, same, isOctal, _⟩
    · exact absurd rfl noZero
    · obtain ⟨_, rfl⟩ := List.cons.inj same
      exact absurd (isOctal '8' List.mem_cons_self) (by decide)

end TeenyC
