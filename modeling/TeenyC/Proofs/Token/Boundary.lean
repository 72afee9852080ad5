import TeenyC.Proofs.Token.Drain

/-!
# The cursor and the characters of the text

The cursor of a lexer counts in bytes, and no token can be read where it is inside a
character.  Whatever is done with a lexer, it keeps track of its text: the text that is
left is the end of the text, and the bytes before it are those that the cursor counts.
Only moving by single bytes takes the cursor into a character; all else moves it from one
boundary between characters to another, and a fault is reported at such a boundary.
-/

namespace TeenyC

open String (utf8Len utf8Len_toList)

/-! ## Places in a text -/

/-- The place is strictly inside a character of the text: it is before the end and not at a
boundary between characters. -/
def InsideCharacter (text : String) (position : Nat) : Prop :=
  position < text.utf8ByteSize ∧ ¬ String.Pos.Raw.IsValid text ⟨position⟩

/-- The place behind some characters of a text is a boundary. -/
theorem isValid_utf8Len {text : String} {before after : List Char}
    (split : text.toList = before ++ after) :
    String.Pos.Raw.IsValid text ⟨utf8Len before⟩ := by
  rw [String.Pos.Raw.isValid_iff_exists_take_toList]
  refine ⟨before.length, ?_⟩
  rw [split, List.take_left, String.utf8ByteSize_ofList]

/-- No boundary is inside a character. -/
theorem utf8Len_le_or_le {before after first second : List Char} {c : Char}
    (same : before ++ c :: after = first ++ second) :
    utf8Len first ≤ utf8Len before ∨ utf8Len before + c.utf8Size ≤ utf8Len first := by
  rcases List.append_eq_append_iff.mp same with ⟨middle, rfl, rest⟩ | ⟨middle, rfl, _⟩
  · cases middle with
    | nil => simp
    | cons head tail =>
        obtain ⟨rfl, _⟩ := List.cons.inj rest
        right
        simp only [String.utf8Len_append, String.utf8Len_cons]
        omega
  · left
    simp only [String.utf8Len_append]
    omega

theorem insideCharacter_of_split {text : String} {before after : List Char} {c : Char} {n : Nat}
    (split : text.toList = before ++ c :: after) (positive : n ≠ 0) (inside : n < c.utf8Size) :
    InsideCharacter text (utf8Len before + n) := by
  constructor
  · rw [← utf8Len_toList, split]
    simp only [String.utf8Len_append, String.utf8Len_cons]
    omega
  · rw [String.Pos.Raw.isValid_iff_exists_append]
    rintro ⟨first, second, rfl, isEnd⟩
    have position : utf8Len before + n = utf8Len first.toList := by
      rw [utf8Len_toList]
      exact congrArg String.Pos.Raw.byteIdx isEnd
    rw [String.toList_append] at split
    have apart := utf8Len_le_or_le split.symm
    omega

/-! ## Faults of readings -/

namespace Lexeme

variable {text : List Char} {cause : LexicalCause}

/-- A string that a line end cuts short is found to be open at the line end. -/
theorem readString_fault_of_closed (closed : Closed text) (notNil : text ≠ [])
    (result : (readString text).result = .error cause) :
    (readString text).passed ≤ text.length := by
  obtain ⟨_, _, _, goesOn⟩ := closed.run_append notNil isStringCharacter rfl []
  have short : (text.takeWhile isStringCharacter).length < text.length := by
    apply List.length_lt_of_drop_ne_nil
    rwa [drop_length_takeWhile]
  revert result
  simp only [readString]
  split
  · simp
  · intro _
    exact short

/-- A fault in a closed text is found before its end. -/
theorem read_fault_of_closed (closed : Closed text)
    (result : (read text).result = .error cause) : (read text).passed < text.length := by
  cases text with
  | nil => simp [read] at result
  | cons first rest =>
      revert result
      simp only [read]
      split
      · simp [readWord]
      · split
        · exact readNumber_fault
        · split
          · next isQuote =>
              obtain ⟨restClosed, restNotNil⟩ := closed.tail (by rw [isQuote]; decide)
              intro result
              exact Nat.lt_succ_of_le (readString_fault_of_closed restClosed restNotNil result)
          · intro result
            rw [readSymbol_fault result]
            exact Nat.succ_pos _

/-- A reading is never inside a character. -/
theorem read_ne_insideCharacter (text : List Char) :
    (read text).result ≠ .error .insideCharacter := by
  cases text with
  | nil => simp [read]
  | cons first rest =>
      simp only [read]
      split
      · simp [readWord]
      · split
        · simp only [readNumber]
          split <;> (try split) <;> simp
        · split
          · simp only [readString]
            split <;> simp
          · simp only [readSymbol]
            split
            · simp
            · split
              · simp
              · split <;> simp

end Lexeme

/-! ## Keeping track of the text -/

namespace Lexer

/-- The lexer keeps track of a text: what is left is the end of the text, and a cursor that
is not at the start of it is inside its first character. -/
structure Tracks (lexer : Lexer) (text : List Char) : Prop where
  valid : lexer.Valid
  size : lexer.size = utf8Len text
  suffix : lexer.rest <:+ text
  inside : lexer.inside ≠ 0 → ∃ c rest, lexer.rest = c :: rest ∧ lexer.inside < c.utf8Size

theorem tracks_ofString (source : String) :
    (ofString source).Tracks (source.toList ++ ['\n']) where
  valid := valid_ofString source
  size := by
    have newline : '\n'.utf8Size = 1 := rfl
    simp [ofString, newline]
  suffix := List.suffix_rfl
  inside := by simp [ofString]

section Tracks

variable {lexer : Lexer} {text : List Char}

theorem Tracks.pass (tracks : lexer.Tracks text) (between : lexer.inside = 0) (n : Nat) :
    (lexer.pass n).Tracks text where
  valid := tracks.valid.pass between n
  size := by rw [size_pass, tracks.size]
  suffix := by
    rw [rest_pass]
    exact (List.drop_suffix n lexer.rest).trans tracks.suffix
  inside := by simp [between]

theorem Tracks.advance (tracks : lexer.Tracks text) : lexer.advance.Tracks text := by
  rcases tracks with ⟨⟨ended, counted⟩, size, suffix, inside⟩
  rw [Lexer.advance]
  split
  · next atEnd =>
      refine ⟨⟨?_, ?_⟩, size, suffix, inside⟩
      · intro _
        exact (ended atEnd).trans (Nat.le_succ _)
      · intro more
        exact absurd atEnd more
  · next c rest here =>
      have counted := counted (by simp [here])
      rw [here, String.utf8Len_cons] at counted
      split
      · next more =>
          refine ⟨⟨?_, ?_⟩, size, suffix, ?_⟩
          · simp [here]
          · intro _
            simp only [here, String.utf8Len_cons]
            omega
          · intro _
            exact ⟨c, rest, here, more⟩
      · next last =>
          have isLast : lexer.inside + 1 = c.utf8Size := by
            by_cases between : lexer.inside = 0
            · have := c.utf8Size_pos
              omega
            · obtain ⟨d, _, isHere, short⟩ := inside between
              obtain ⟨rfl, _⟩ := List.cons.inj (here.symm.trans isHere)
              omega
          refine ⟨⟨?_, ?_⟩, size, ?_, ?_⟩
          · rintro rfl
            simp only [String.utf8Len_nil] at counted
            show lexer.size ≤ lexer.position + 1
            omega
          · intro _
            show lexer.position + 1 + utf8Len rest = lexer.size + 0
            omega
          · rw [here] at suffix
            exact (List.suffix_cons c rest).trans suffix
          · simp

theorem Tracks.skipBlanks (tracks : lexer.Tracks text) : lexer.skipBlanks.Tracks text := by
  rw [Lexer.skipBlanks]
  split
  · next between => exact tracks.pass between _
  · exact tracks

theorem Tracks.skipComment (tracks : lexer.Tracks text) : lexer.skipComment.Tracks text := by
  rw [Lexer.skipComment]
  split
  · next between _ => exact tracks.pass between _
  · exact tracks

theorem Tracks.tokenStart (tracks : lexer.Tracks text) : lexer.tokenStart.Tracks text :=
  tracks.skipBlanks.skipComment

end Tracks

/-! ## Operations -/

/-- The cursor after asking for a token, whether one was given or not. -/
def afterNext (lexer : Lexer) : Lexer :=
  match lexer.next with
  | .ok _ after => after
  | .error _ after => after

theorem afterNext_eq (lexer : Lexer) :
    lexer.afterNext =
      if lexer.tokenStart.inside = 0 then
        lexer.tokenStart.pass (Lexeme.read lexer.tokenStart.rest).passed
      else
        lexer.tokenStart := by
  rw [afterNext, next_eq]
  split_ifs
  · cases (Lexeme.read lexer.tokenStart.rest).result <;> rfl
  · rfl

/-- What can be done with a lexer. -/
inductive Operation where
  | next
  | advance
  | skipBlanks
  | skipComment
  | peek
  deriving DecidableEq

/-- The cursor after an operation. -/
def perform (lexer : Lexer) : Operation → Lexer
  | .next => lexer.afterNext
  | .advance => lexer.advance
  | .skipBlanks => lexer.skipBlanks
  | .skipComment => lexer.skipComment
  | .peek => lexer

/-- The cursor after operations. -/
def performAll (lexer : Lexer) (operations : List Operation) : Lexer :=
  operations.foldl perform lexer

section Operations

variable {lexer : Lexer} {text : List Char} {operation : Operation} {operations : List Operation}

/-- Every operation keeps track of the text. -/
theorem Tracks.perform (tracks : lexer.Tracks text) (operation : Operation) :
    (lexer.perform operation).Tracks text := by
  cases operation with
  | next =>
      rw [Lexer.perform, afterNext_eq]
      split
      · next between => exact tracks.tokenStart.pass between _
      · exact tracks.tokenStart
  | advance => exact tracks.advance
  | skipBlanks => exact tracks.skipBlanks
  | skipComment => exact tracks.skipComment
  | peek => exact tracks

theorem Tracks.performAll (tracks : lexer.Tracks text) (operations : List Operation) :
    (lexer.performAll operations).Tracks text := by
  induction operations generalizing lexer with
  | nil => exact tracks
  | cons operation rest inductionHypothesis => exact inductionHypothesis (tracks.perform operation)

/-- Only moving by single bytes takes the cursor into a character. -/
theorem inside_perform (between : lexer.inside = 0) (whole : operation ≠ .advance) :
    (lexer.perform operation).inside = 0 := by
  cases operation with
  | next =>
      have start := inside_tokenStart between
      rw [perform, afterNext_eq, if_pos start, inside_pass, start]
  | advance => contradiction
  | skipBlanks => rw [perform, inside_skipBlanks, between]
  | skipComment =>
      obtain ⟨n, isPass⟩ := skipComment_eq_pass lexer
      rw [perform, isPass, inside_pass, between]
  | peek => exact between

theorem inside_performAll (between : lexer.inside = 0) (whole : .advance ∉ operations) :
    (lexer.performAll operations).inside = 0 := by
  induction operations generalizing lexer with
  | nil => exact between
  | cons operation rest inductionHypothesis =>
      obtain ⟨here, later⟩ := List.ne_and_not_mem_of_not_mem_cons whole
      exact inductionHypothesis (inside_perform between here.symm) later

end Operations

/-! ## Where a cursor is -/

section Places

variable {lexer after : Lexer} {source : String} {error : LexicalError}

/-- Before the end of the text, the cursor has passed some characters of the source. -/
theorem Tracks.exists_split (tracks : lexer.Tracks (source.toList ++ ['\n']))
    (notNil : lexer.rest ≠ []) :
    ∃ passed, source.toList = passed ++ lexer.rest.dropLast ∧
      lexer.position = utf8Len passed + lexer.inside := by
  obtain ⟨passed, split⟩ := tracks.suffix
  refine ⟨passed, ?_, ?_⟩
  · rw [← List.dropLast_append_of_ne_nil notNil, split, List.dropLast_concat]
  · have counted := tracks.valid.counted notNil
    rw [tracks.size, ← split, String.utf8Len_append] at counted
    omega

/-- What is left of the text closes with its line end. -/
theorem Tracks.closed (tracks : lexer.Tracks (source.toList ++ ['\n'])) : Closed lexer.rest := by
  obtain ⟨before, isText⟩ := tracks.suffix
  have closedText := closed_append_newline source.toList
  rw [← isText] at closedText
  exact closedText.of_append

/-- The cursor is at a boundary between characters of a source text, or past its end. -/
def AtBoundary (lexer : Lexer) (source : String) : Prop :=
  String.Pos.Raw.IsValid source ⟨lexer.position⟩ ∨ source.utf8ByteSize < lexer.position

theorem Tracks.atBoundary (tracks : lexer.Tracks (source.toList ++ ['\n']))
    (between : lexer.inside = 0) : lexer.AtBoundary source := by
  by_cases atEnd : lexer.rest = []
  · right
    have ended := tracks.valid.ended atEnd
    have newline : '\n'.utf8Size = 1 := rfl
    rw [tracks.size] at ended
    simp only [String.utf8Len_append, utf8Len_toList, String.utf8Len_cons, String.utf8Len_nil,
      newline] at ended
    omega
  · left
    obtain ⟨passed, split, position⟩ := tracks.exists_split atEnd
    rw [position, between, Nat.add_zero]
    exact isValid_utf8Len split

/-- The cursor is where it says that it is. -/
theorem Tracks.insideCharacter_iff (tracks : lexer.Tracks (source.toList ++ ['\n'])) :
    InsideCharacter source lexer.position ↔ lexer.inside ≠ 0 := by
  constructor
  · rintro ⟨before, notBoundary⟩ between
    rcases tracks.atBoundary between with boundary | past
    · exact notBoundary boundary
    · omega
  · intro within
    obtain ⟨c, rest, here, short⟩ := tracks.inside within
    obtain ⟨passed, split, position⟩ := tracks.exists_split (by simp [here])
    -- A character of several bytes is not the line end behind the source.
    have notLast : rest ≠ [] := by
      rintro rfl
      have closed := tracks.closed
      rw [here] at closed
      have isNewline : c = '\n' := closed c (by simp)
      have newline : '\n'.utf8Size = 1 := rfl
      rw [isNewline, newline] at short
      omega
    rw [here, List.dropLast_cons_of_ne_nil notLast] at split
    rw [position]
    exact insideCharacter_of_split split within short

/-! ## Asking for a token -/

/-- Asking for a token fails because the cursor is inside a character. -/
def FailsInside (lexer : Lexer) : Prop :=
  ∃ position after, lexer.next = .error ⟨position, .insideCharacter⟩ after

theorem next_of_inside (within : lexer.inside ≠ 0) :
    lexer.next = .error ⟨lexer.position, .insideCharacter⟩ lexer := by
  rw [next_eq, tokenStart_of_inside within, if_neg within]

/-- Between two characters a fault is found at a boundary of the source. -/
theorem Tracks.isValid_of_fault (tracks : lexer.Tracks (source.toList ++ ['\n']))
    (between : lexer.inside = 0) (fails : lexer.next = .error error after) :
    String.Pos.Raw.IsValid source ⟨error.position⟩ ∧ error.cause ≠ .insideCharacter := by
  have start := inside_tokenStart between
  rw [next_eq, if_pos start] at fails
  cases result : (Lexeme.read lexer.tokenStart.rest).result with
  | ok token => simp [result] at fails
  | error cause =>
      simp only [result, EStateM.Result.error.injEq] at fails
      obtain ⟨rfl, rfl⟩ := fails
      have startTracks := tracks.tokenStart
      have short := Lexeme.read_fault_of_closed startTracks.closed result
      obtain ⟨passed, split, position⟩ :=
        (startTracks.pass start (Lexeme.read lexer.tokenStart.rest).passed).exists_split
          (by simpa using short)
      constructor
      · rw [position, inside_pass, start, Nat.add_zero]
        exact isValid_utf8Len split
      · rintro rfl
        exact Lexeme.read_ne_insideCharacter _ result

theorem Tracks.failsInside_iff (tracks : lexer.Tracks (source.toList ++ ['\n'])) :
    lexer.FailsInside ↔ lexer.inside ≠ 0 := by
  constructor
  · rintro ⟨position, after, fails⟩ between
    exact (tracks.isValid_of_fault between fails).2 rfl
  · intro within
    exact ⟨_, _, next_of_inside within⟩

end Places

/-! ## Asking for tokens only -/

/-- The first lexer becomes the second one by asking for tokens. -/
def ReadsTo (lexer after : Lexer) : Prop :=
  ∃ n, after = lexer.performAll (List.replicate n .next)

/-- Asking for tokens comes to a fault. -/
def Meets (lexer : Lexer) (fault : LexicalError) : Prop :=
  ∃ before after, lexer.ReadsTo before ∧ before.next = .error fault after

section Reading

variable {lexer after : Lexer} {source : String} {fault : LexicalError}

theorem ReadsTo.refl (lexer : Lexer) : lexer.ReadsTo lexer :=
  ⟨0, rfl⟩

theorem ReadsTo.next (reads : lexer.ReadsTo after) : lexer.ReadsTo after.afterNext := by
  obtain ⟨n, rfl⟩ := reads
  refine ⟨n + 1, ?_⟩
  rw [List.replicate_succ', performAll, performAll, List.foldl_concat]
  rfl

theorem ReadsTo.of_afterNext (reads : lexer.afterNext.ReadsTo after) : lexer.ReadsTo after := by
  obtain ⟨n, rfl⟩ := reads
  exact ⟨n + 1, rfl⟩

/-- Asking for tokens leaves a lexer between characters. -/
theorem ReadsTo.settled (reads : (ofString source).ReadsTo lexer) :
    lexer.Tracks (source.toList ++ ['\n']) ∧ lexer.inside = 0 := by
  obtain ⟨n, rfl⟩ := reads
  refine ⟨(tracks_ofString source).performAll _, inside_performAll rfl ?_⟩
  simp [List.mem_replicate]

theorem ReadsTo.atBoundary (reads : (ofString source).ReadsTo lexer) :
    lexer.AtBoundary source := by
  obtain ⟨tracks, between⟩ := reads.settled
  exact tracks.atBoundary between

/-- A fault that is met by asking for tokens is at a boundary between characters. -/
theorem Meets.isValid (meets : (ofString source).Meets fault) :
    fault.cause ≠ .insideCharacter ∧ String.Pos.Raw.IsValid source ⟨fault.position⟩ := by
  obtain ⟨before, after, reads, fails⟩ := meets
  obtain ⟨tracks, between⟩ := reads.settled
  exact (tracks.isValid_of_fault between fails).symm

/-- A fault that ends the tokens of a lexer is met by asking for them. -/
theorem meets_of_tokens {n : Nat} (fails : lexer.tokens n = .error fault) :
    lexer.Meets fault := by
  induction n generalizing lexer with
  | zero => cases fails
  | succ n inductionHypothesis =>
      rw [tokens] at fails
      cases read : lexer.next with
      | error error after =>
          simp only [read, Except.error.injEq] at fails
          subst fails
          exact ⟨lexer, after, .refl lexer, read⟩
      | ok token after =>
          have isAfter : lexer.afterNext = after := by rw [Lexer.afterNext, read]
          simp only [read] at fails
          split at fails
          · cases fails
          · cases others : after.tokens n with
            | ok rest => simp [others, Except.map] at fails
            | error error =>
                simp only [others, Except.map, Except.error.injEq] at fails
                subst fails
                obtain ⟨before, last, reads, lastFails⟩ := inductionHypothesis others
                exact ⟨before, last, .of_afterNext (isAfter ▸ reads), lastFails⟩

end Reading

end Lexer

end TeenyC
