import Mathlib.Data.List.Forall2
import TeenyC.Proofs.CText.Lines
import TeenyC.Proofs.Text.Unescape
import TeenyC.Token.Listing

/-!
# Reading token listings

A listing shows everything that there is to know of the tokens: one line for each, from which its
kind and its text are read back.  The column of the kinds is as wide as the longest name, so one
space always follows it, and names hold no spaces; the text behind it is escaped.
-/

namespace TeenyC

/-! ## The decoder -/

/-- The token that a line of a listing shows. -/
def Token.ofLine? (line : String) : Option Token := do
  let name := (line.toList.take kindColumn.width).takeWhile (· != ' ')
  let kind ← Kind.ofName? (String.ofList name)
  let text ← unescapeText (String.ofList (line.toList.drop (kindColumn.width + 1)))
  return ⟨kind, text⟩

/-- The tokens that a listing shows, one on each line. -/
def tokensOfListing? (text : String) : Option (List Token) :=
  (textLines text).mapM Token.ofLine?

/-! ## Lines -/

/-- The line of a token without its line end. -/
def Token.shown (token : Token) : String :=
  kindColumn.set token.kind.name ++ " " ++ escapeText token.text

theorem Token.line_eq (token : Token) : token.line = token.shown ++ "\n" := rfl

/-- A kind fills its column, and its name is what stands there before the first space. -/
theorem kindColumn_set (kind : Kind) :
    (kindColumn.set kind.name).toList.length = kindColumn.width ∧
      (kindColumn.set kind.name).toList.takeWhile (· != ' ') = kind.name.toList ∧
      '\n' ∉ (kindColumn.set kind.name).toList := by
  cases kind <;> decide

theorem Token.toList_shown (token : Token) :
    token.shown.toList =
      (kindColumn.set token.kind.name).toList ++ ' ' :: (escapeText token.text).toList := by
  simp [shown]

theorem Token.unbroken_shown (token : Token) : Syntax.Line.Unbroken token.shown.toList := by
  intro c isIn
  rintro rfl
  rw [toList_shown] at isIn
  rcases List.mem_append.mp isIn with inColumn | inText
  · exact (kindColumn_set token.kind).2.2 inColumn
  · rcases List.mem_cons.mp inText with isSpace | inText
    · exact absurd isSpace (by decide)
    · exact newline_not_mem_escapeText token.text inText

/-- The line of a token is read as that token. -/
theorem Token.ofLine?_shown (token : Token) : ofLine? token.shown = some token := by
  rcases kindColumn_set token.kind with ⟨fills, isName, _⟩
  have behind : token.shown.toList.drop (kindColumn.width + 1) =
      (escapeText token.text).toList := by
    rw [toList_shown, ← fills, List.drop_length_add_append]
    rfl
  have before : (token.shown.toList.take kindColumn.width).takeWhile (· != ' ') =
      token.kind.name.toList := by
    rw [toList_shown, ← fills, List.take_left, isName]
  rw [ofLine?, before, behind, String.ofList_toList, String.ofList_toList,
    Kind.ofName?_name, unescapeText_escapeText]
  rfl

/-! ## Listings -/

theorem textLines_tokenLines (tokens : List Token) :
    textLines (tokenLines tokens) = tokens.map Token.shown := by
  induction tokens with
  | nil => rfl
  | cons token rest inductionHypothesis =>
      have split : tokenLines (token :: rest) = token.shown ++ "\n" ++ tokenLines rest := by
        simp [tokenLines, Token.line_eq]
      rw [split, Syntax.textLines_cons token.unbroken_shown, inductionHypothesis, List.map_cons]

theorem tokensOfListing?_tokenLines (tokens : List Token) :
    tokensOfListing? (tokenLines tokens) = some tokens := by
  rw [tokensOfListing?, textLines_tokenLines]
  induction tokens with
  | nil => rfl
  | cons token rest inductionHypothesis =>
      rw [List.map_cons, List.mapM_cons, Token.ofLine?_shown, inductionHypothesis]
      rfl

theorem listing_eq_ok_iff {source text : String} :
    listing source = .ok text ↔
      ∃ tokens, tokenize source = .ok tokens ∧ tokenLines tokens = text := by
  rw [listing]
  cases tokenize source <;> simp [Except.map]

/-- A listing consists of whole lines, one for each token and in the order of the tokens.  The
tokens are read back from it, line by line, so that sources with the same listing have the same
tokens. -/
theorem listing_decodes {source text : String} (lists : listing source = .ok text) :
    ∃ tokens, tokenize source = .ok tokens ∧
      text = String.join ((textLines text).map (· ++ "\n")) ∧
      List.Forall₂ (fun line token => Token.ofLine? line = some token) (textLines text) tokens ∧
      tokensOfListing? text = some tokens ∧
      ∀ other, listing other = .ok text → tokenize other = .ok tokens := by
  rcases listing_eq_ok_iff.mp lists with ⟨tokens, lexes, rfl⟩
  refine ⟨tokens, lexes, ?_, ?_, tokensOfListing?_tokenLines tokens, ?_⟩
  · rw [textLines_tokenLines, List.map_map]
    rfl
  · rw [textLines_tokenLines, List.forall₂_map_left_iff, List.forall₂_same]
    exact fun token _ => token.ofLine?_shown
  · intro other otherLists
    rcases listing_eq_ok_iff.mp otherLists with ⟨others, otherLexes, same⟩
    have decoded := tokensOfListing?_tokenLines others
    rw [same, tokensOfListing?_tokenLines] at decoded
    rw [otherLexes, Option.some.inj decoded]

/-- The longest name, and a string with a grapheme extender and the text of its escape. -/
def lookalike : String := "* \"\u0301\\u\x7b301\x7d'\""

/-- The listing of the four tokens. -/
def lookalikeListing : String :=
  "ASTERISK *\n" ++ "STRING   \\u\x7b301\x7d\\\\u\x7b301\x7d\\'\n" ++ "NEWLINE  \\n\n" ++
    "EOF      \n"

theorem listing_decodes_lookalike :
    listing lookalike = .ok lookalikeListing ∧
      ∃ tokens, tokenize lookalike = .ok tokens ∧
        lookalikeListing = String.join ((textLines lookalikeListing).map (· ++ "\n")) ∧
        List.Forall₂ (fun line token => Token.ofLine? line = some token)
          (textLines lookalikeListing) tokens ∧
        tokensOfListing? lookalikeListing = some tokens ∧
        ∀ other, listing other = .ok lookalikeListing → tokenize other = .ok tokens := by
  have lists : listing lookalike = .ok lookalikeListing := by
    decide +kernel
  exact ⟨lists, listing_decodes lists⟩

end TeenyC
