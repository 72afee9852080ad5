import TeenyC.Text.GraphemeExtend
import TeenyC.Text.Unprintable

/-!
# Escaped text

Text that is quoted in a message or a listing is escaped, so that it stays on one
line and every character of it can be seen.  A few characters have a short
escape, such as `\n`; the other characters that cannot be shown as they are get
their code point, as in `\u{200b}`.

What counts as showable depends on where a character stands: a grapheme extender
is readable after another character but not alone.  `EscapeStyle` holds these
choices.
-/

namespace TeenyC

/-- Which characters are escaped besides the unprintable ones. -/
structure EscapeStyle where
  /-- Escape grapheme extenders. -/
  extenders : Bool
  /-- Escape the apostrophe. -/
  apostrophe : Bool
  deriving DecidableEq

namespace EscapeStyle

/-- For a character that stands alone. -/
def alone : EscapeStyle := ⟨true, true⟩

/-- For a character that follows another. -/
def following : EscapeStyle := ⟨false, true⟩

/-- For a character between double quotes. -/
def quoted : EscapeStyle := ⟨true, false⟩

end EscapeStyle

/-! ## One character -/

/-- The letter that stands for a character after a backslash. -/
def shortEscape? (style : EscapeStyle) : Char → Option Char
  | '\x00' => some '0'
  | '\t' => some 't'
  | '\r' => some 'r'
  | '\n' => some 'n'
  | '\\' => some '\\'
  | '"' => some '"'
  | '\x27' => if style.apostrophe then some '\x27' else none
  | _ => none

/-- A character by its code point, in lower-case hexadecimal digits. -/
def codePointEscape (c : Char) : List Char :=
  ['\\', 'u', '\x7b'] ++ Nat.toDigits 16 c.toNat ++ ['\x7d']

/-- One character as it is shown. -/
def escapeChar (style : EscapeStyle) (c : Char) : List Char :=
  match shortEscape? style c with
  | some letter => ['\\', letter]
  | none =>
    if (style.extenders && isGraphemeExtend c) || isUnprintable c then
      codePointEscape c
    else
      [c]

/-! ## Texts -/

/-- A text as a listing shows it: its first character stands alone, the others
follow one another. -/
def escapeText (text : String) : String :=
  match text.toList with
  | [] => ""
  | c :: rest =>
    String.ofList (escapeChar .alone c ++ rest.flatMap (escapeChar .following))

/-- A text between double quotes. -/
def quoteText (text : String) : String :=
  String.ofList ('"' :: text.toList.flatMap (escapeChar .quoted) ++ ['"'])

end TeenyC
