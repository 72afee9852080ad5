import TeenyC.Text.Escape

/-!
# Reading escaped text

Escaped text can be read back, whichever characters were escaped: a backslash starts an escape and
stands for itself only where another one is in front of it, and every escape tells where it ends.
Escaped text stays on one line.
-/

namespace TeenyC

/-! ## The decoder -/

/-- What the letter behind a backslash stands for. -/
def shortEscapes : List (Char × Char) :=
  [('0', '\x00'), ('t', '\t'), ('r', '\r'), ('n', '\n'), ('\\', '\\'), ('"', '"'),
    ('\x27', '\x27')]

/-- The value of a lower-case hexadecimal digit. -/
def hexDigit (c : Char) : Nat :=
  if c.isDigit then c.toNat - '0'.toNat else c.toNat - 'a'.toNat + 10

/-- Read escaped text.  Inside the braces of a code point, its value so far is given. -/
def unescapeFrom : Option Nat → List Char → Option (List Char)
  | none, [] => some []
  | none, '\\' :: rest =>
    match rest with
    | 'u' :: '\x7b' :: rest => unescapeFrom (some 0) rest
    | letter :: rest => do
      let c ← shortEscapes.lookup letter
      let text ← unescapeFrom none rest
      return c :: text
    | [] => none
  | none, c :: rest => (unescapeFrom none rest).map (c :: ·)
  | some code, '\x7d' :: rest => (unescapeFrom none rest).map (Char.ofNat code :: ·)
  | some code, digit :: rest => unescapeFrom (some (16 * code + hexDigit digit)) rest
  | some _, [] => none

/-- The text that escaped text stands for. -/
def unescapeText (escaped : String) : Option String :=
  (unescapeFrom none escaped.toList).map String.ofList

/-! ## Code points -/

theorem hexDigit_digitChar : ∀ n < 16, hexDigit n.digitChar = n := by
  decide

theorem digitChar_ne : ∀ n < 16, n.digitChar ≠ '\x7d' ∧ n.digitChar ≠ '\n' := by
  decide

theorem unescapeFrom_digitChar {n : Nat} (isDigit : n < 16) (code : Nat) (rest : List Char) :
    unescapeFrom (some code) (n.digitChar :: rest) = unescapeFrom (some (16 * code + n)) rest := by
  rw [unescapeFrom, hexDigit_digitChar n isDigit]
  exact (digitChar_ne n isDigit).1

/-- The digits of a number are read as that number. -/
theorem unescapeFrom_toDigits (n : Nat) (rest : List Char) :
    unescapeFrom (some 0) (Nat.toDigits 16 n ++ rest) = unescapeFrom (some n) rest := by
  induction n using Nat.strongRecOn generalizing rest with
  | _ n inductionHypothesis =>
      by_cases isDigit : n < 16
      · rw [Nat.toDigits_of_lt_base isDigit, List.singleton_append,
          unescapeFrom_digitChar isDigit, Nat.mul_zero, Nat.zero_add]
      · have last : n % 16 < 16 := Nat.mod_lt n (by decide)
        have shorter : n / 16 < n := by omega
        rw [Nat.toDigits_of_base_le (by decide) (Nat.le_of_not_lt isDigit), List.append_assoc,
          inductionHypothesis (n / 16) shorter, List.singleton_append,
          unescapeFrom_digitChar last, Nat.div_add_mod]

theorem newline_not_mem_toDigits (n : Nat) : '\n' ∉ Nat.toDigits 16 n := by
  induction n using Nat.strongRecOn with
  | _ n inductionHypothesis =>
      by_cases isDigit : n < 16
      · rw [Nat.toDigits_of_lt_base isDigit, List.mem_singleton]
        exact fun same => (digitChar_ne n isDigit).2 same.symm
      · have last : n % 16 < 16 := Nat.mod_lt n (by decide)
        rw [Nat.toDigits_of_base_le (by decide) (Nat.le_of_not_lt isDigit), List.mem_append,
          List.mem_singleton, not_or]
        exact ⟨inductionHypothesis (n / 16) (by omega),
          fun same => (digitChar_ne _ last).2 same.symm⟩

theorem unescapeFrom_codePointEscape (c : Char) (rest : List Char) :
    unescapeFrom none (codePointEscape c ++ rest) = (unescapeFrom none rest).map (c :: ·) := by
  have split : codePointEscape c ++ rest =
      '\\' :: 'u' :: '\x7b' :: (Nat.toDigits 16 c.toNat ++ '\x7d' :: rest) := by
    simp [codePointEscape]
  rw [split, unescapeFrom, unescapeFrom_toDigits, unescapeFrom, Char.ofNat_toNat]

/-! ## Characters -/

variable {style : EscapeStyle} {c letter : Char}

/-- A short escape is read as its character. -/
theorem lookup_of_shortEscape? (isShort : shortEscape? style c = some letter) :
    shortEscapes.lookup letter = some c ∧ letter ≠ 'u' ∧ letter ≠ '\n' := by
  rw [shortEscape?.eq_def] at isShort
  split at isShort
  case h_7 =>
    split at isShort
    · cases isShort
      decide
    · cases isShort
  case h_8 => cases isShort
  all_goals
    cases isShort
    decide

/-- The backslash and the line end have a short escape in every style. -/
theorem ne_of_shortEscape?_eq_none (notShort : shortEscape? style c = none) :
    c ≠ '\\' ∧ c ≠ '\n' := by
  constructor
  · rintro rfl
    cases notShort
  · rintro rfl
    cases notShort

/-- An escaped character is read as itself, whatever comes behind it. -/
theorem unescapeFrom_escapeChar (style : EscapeStyle) (c : Char) (rest : List Char) :
    unescapeFrom none (escapeChar style c ++ rest) = (unescapeFrom none rest).map (c :: ·) := by
  rw [escapeChar]
  split
  · next letter isShort =>
      rcases lookup_of_shortEscape? isShort with ⟨isChar, notCode, _⟩
      rw [List.cons_append, List.singleton_append, unescapeFrom]
      · rw [isChar]
        cases unescapeFrom none rest <;> rfl
      · intro _ isCode
        exact absurd isCode notCode
  · next notShort =>
      split
      · exact unescapeFrom_codePointEscape c rest
      · rw [List.singleton_append, unescapeFrom]
        exact (ne_of_shortEscape?_eq_none notShort).1

theorem newline_not_mem_escapeChar (style : EscapeStyle) (c : Char) :
    '\n' ∉ escapeChar style c := by
  rw [escapeChar]
  split
  · next letter isShort =>
      have notLetter := (lookup_of_shortEscape? isShort).2.2
      simp [Ne.symm notLetter]
  · next notShort =>
      split
      · simp [codePointEscape, newline_not_mem_toDigits]
      · have notChar := (ne_of_shortEscape?_eq_none notShort).2
        simp [Ne.symm notChar]

/-! ## Texts -/

theorem unescapeFrom_flatMap (style : EscapeStyle) (text : List Char) :
    unescapeFrom none (text.flatMap (escapeChar style)) = some text := by
  induction text with
  | nil => rfl
  | cons c rest inductionHypothesis =>
      rw [List.flatMap_cons, unescapeFrom_escapeChar, inductionHypothesis]
      rfl

/-- Escaped text is read as the text. -/
theorem unescapeText_escapeText (text : String) : unescapeText (escapeText text) = some text := by
  have same : String.ofList text.toList = text := String.ofList_toList
  rw [unescapeText, escapeText]
  split
  · next isEmpty =>
      rw [isEmpty] at same
      rw [← same]
      rfl
  · next c rest isText =>
      rw [String.toList_ofList, unescapeFrom_escapeChar, unescapeFrom_flatMap, ← same, isText]
      rfl

/-- Escaped text has no line end. -/
theorem newline_not_mem_escapeText (text : String) : '\n' ∉ (escapeText text).toList := by
  rw [escapeText]
  split
  · exact List.not_mem_nil
  · next c rest _ =>
      rw [String.toList_ofList, List.mem_append, List.mem_flatMap, not_or]
      constructor
      · exact newline_not_mem_escapeChar .alone c
      · rintro ⟨d, _, isIn⟩
        exact newline_not_mem_escapeChar .following d isIn

/-- Text that looks like an escape is told from one. -/
example : escapeText "\\u\x7b41\x7d\x00'" = "\\\\u\x7b41\x7d\\0\\'" ∧
    unescapeText "\\\\u\x7b41\x7d\\0\\'" = some "\\u\x7b41\x7d\x00'" := by
  decide +kernel

end TeenyC
