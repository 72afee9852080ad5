import TeenyC.Proofs.Compile.Inheritance
import TeenyC.Proofs.Token.Answers

/-!
# Compiling from the middle of a text

A lexer has no memory but its cursor.  If it was moved over the first part of a text by single
bytes, then it gives the answers that a new lexer at the second part gives, and compiling from
there on gives the same result and the same C text.  Only the places of lexical faults count the
bytes of the first part: `answers_and_run_from_boundary`.

That rules do not depend on the place of their lexer is inherited from their parts: they ask it for
tokens, and use the number of its unread bytes as a bound, which is the same in both places.
-/

namespace TeenyC

/-! ## Places further on -/

/-- The same error, with lexical faults so many bytes further on. -/
def Error.shift (distance : Nat) : Error → Error
  | .lexical error => .lexical (error.shift distance)
  | error => error

theorem Error.AtOnce.shift_eq {error : Error} (atOnce : error.AtOnce) (distance : Nat) :
    error.shift distance = error := by
  cases error with
  | lexical error => exact atOnce.elim
  | syntactic fault => rfl
  | semantic fault => rfl

/-- The session with so many bytes in front of the text of its lexer. -/
def Session.behind (session : Session) (distance : Nat) : Session :=
  { session with lexer := session.lexer.behind distance }

namespace Rule

variable {α β : Type} {distance : Nat}

/-- The outcome of a rule, with so many bytes in front of the text. -/
def outcomeBehind (distance : Nat) :
    EStateM.Result Error Session α → EStateM.Result Error Session α
  | .ok value after => .ok value (after.behind distance)
  | .error error after => .error (error.shift distance) (after.behind distance)

/-- The rule does the same however many bytes are in front of the text. -/
def IgnoresPlace (distance : Nat) (rule : Rule α) : Prop :=
  ∀ session, rule (session.behind distance) = outcomeBehind distance (rule session)

/-! ## The steps of a pass -/

theorem IgnoresPlace.bind {rule : Rule α} {next : α → Rule β} (first : IgnoresPlace distance rule)
    (second : ∀ value, IgnoresPlace distance (next value)) :
    IgnoresPlace distance (rule >>= next) := by
  intro session
  rw [bind_apply, bind_apply, first]
  cases rule session with
  | ok value after => exact second value after
  | error error after => rfl

theorem ignoresPlace_throw {error : Error} (stays : error.shift distance = error) :
    IgnoresPlace distance (throw error : Rule α) := by
  intro session
  change EStateM.Result.error error _ = .error (error.shift distance) _
  rw [stays]

/-- A choice that may depend on how much is unread, but not on the place. -/
theorem ignoresPlace_look {next : Session → Rule α}
    (blind : ∀ session, next (Session.behind session distance) = next session)
    (ofNext : ∀ session, IgnoresPlace distance (next session)) :
    IgnoresPlace distance (get >>= next) := by
  intro session
  rw [get_bind, get_bind, blind]
  exact ofNext session session

theorem ignoresPlace_modify {change : Session → Session}
    (commutes : ∀ session, change (Session.behind session distance) =
      (change session).behind distance) :
    IgnoresPlace distance (modify change : Rule Unit) := by
  intro session
  rw [modify_apply, modify_apply, commutes]
  rfl

theorem ignoresPlace_shift : IgnoresPlace distance shift := by
  intro session
  simp only [shift, Session.behind, Lexer.next_behind]
  cases session.lexer.next <;> rfl

theorem ignoresPlace_declareVariable (name : String) :
    IgnoresPlace distance (declareVariable name) := by
  intro session
  rw [declareVariable_eq, declareVariable_eq]
  apply congrArg (EStateM.Result.ok ())
  change (if session.table.declares session.function name = true then _ else _) = _
  split <;> rfl

/-! ## All rules -/

theorem ignoresPlace_inherited : Inherited fun _ rule => IgnoresPlace distance rule where
  pure _ _ := rfl
  bind := IgnoresPlace.bind
  throw atOnce := ignoresPlace_throw (atOnce.shift_eq distance)
  look blind := ignoresPlace_look fun session =>
    blind session session.unit (session.lexer.behind distance)
      (session.lexer.unread_behind distance)
  shift := ignoresPlace_shift
  write _ := ignoresPlace_modify fun _ => rfl
  addLabel _ := ignoresPlace_modify fun _ => rfl
  addTarget _ := ignoresPlace_modify fun _ => rfl
  declareVariable := ignoresPlace_declareVariable

theorem IgnoresPlace.functionDeclaration {inner : Rule Unit}
    (ignores : IgnoresPlace distance inner) :
    IgnoresPlace distance (functionDeclaration inner) := by
  apply ignoresPlace_inherited.functionDeclaration _ _ (ignoresPlace_modify fun _ => rfl) ignores
  · intro next blind
    exact ignoresPlace_look fun session =>
      blind session session.unit (session.lexer.behind distance) rfl
        (session.lexer.unread_behind distance)
  · intro name
    exact ignoresPlace_modify fun _ => rfl

/-- A whole pass ignores how many bytes are in front of its text. -/
theorem ignoresPlace_program : IgnoresPlace distance program := by
  have statements : IgnoresPlace distance statement :=
    ignoresPlace_inherited.statement fun _ => .functionDeclaration
  have body : IgnoresPlace distance (programBody statement) :=
    ignoresPlace_inherited.programBody (fun _ => ignoresPlace_throw rfl) statements
  intro session
  exact body session.openMain

end Rule

/-! ## Whole passes -/

theorem Session.start_behind (lexer : Lexer) (distance : Nat) (unit : CUnit) :
    Session.start (lexer.behind distance) unit =
      match Session.start lexer unit with
      | .ok session => .ok (session.behind distance)
      | .error error => .error (error.shift distance) := by
  rw [Session.start, Session.start, Lexer.next_behind]
  cases lexer.next with
  | error error after => rfl
  | ok current after =>
      dsimp only
      rw [Lexer.next_behind]
      cases after.next <;> rfl

/-- A pass gives the same summary or error, and the same C text, however many bytes are in front of
its text. -/
theorem run_behind (lexer : Lexer) (distance : Nat) (unit : CUnit) :
    run (lexer.behind distance) unit =
      ((run lexer unit).1.mapError (·.shift distance), (run lexer unit).2) := by
  simp only [run, Session.start_behind]
  cases Session.start lexer unit with
  | error error => rfl
  | ok session =>
      simp only [Rule.ignoresPlace_program session]
      cases Rule.program session <;> rfl

open String.Pos.Raw (IsValid extract)

/-- A lexer that was moved by single bytes to a boundary between characters of its text answers
like a new lexer at the rest of the text, whatever is done with it, and is compiled from like it:
the result and the C text are the same, and the places of faults count the bytes that it was
moved. -/
theorem answers_and_run_from_boundary {source : String} {n : Nat}
    (isBoundary : IsValid source ⟨n⟩) :
    let moved := (Lexer.ofString source).performAll (List.replicate n .advance)
    let fresh := Lexer.ofString (extract source ⟨n⟩ source.rawEndPos)
    (∀ operations, moved.answers operations = (fresh.answers operations).map (·.shift n)) ∧
      ∀ unit, run moved unit = ((run fresh unit).1.mapError (·.shift n), (run fresh unit).2) := by
  obtain ⟨before, after, rfl, isEnd⟩ := String.Pos.Raw.isValid_iff_exists_append.mp isBoundary
  obtain rfl : n = before.utf8ByteSize := congrArg String.Pos.Raw.byteIdx isEnd
  have rest : extract (before ++ after) ⟨before.utf8ByteSize⟩ (before ++ after).rawEndPos =
      after := by
    have cuts := String.extract_of_valid before.toList after.toList []
    simpa [String.utf8Len_toList, String.rawEndPos] using cuts
  intro moved fresh
  have isMoved : moved = fresh.behind before.utf8ByteSize := by
    rw [show fresh = Lexer.ofString after from congrArg Lexer.ofString rest]
    exact Lexer.advances_ofString before after
  rw [isMoved]
  constructor
  · exact (Lexer.shifted_behind fresh before.utf8ByteSize).answers
  · exact run_behind fresh before.utf8ByteSize

/-- Behind a character of two bytes. -/
theorem answers_and_run_from_boundary_two_bytes :
    ((Lexer.ofString "é!").performAll [.advance, .advance]).answers [.peek, .next] =
        [.byte 10, .fault ⟨2, .loneExclamation '\n'⟩] ∧
      (run ((Lexer.ofString "é!").performAll [.advance, .advance]) .empty).1 =
        .error (.lexical ⟨2, .loneExclamation '\n'⟩) := by
  have isBoundary : IsValid "é!" ⟨2⟩ := by decide +kernel
  have rest : extract "é!" ⟨2⟩ "é!".rawEndPos = "!" := by decide +kernel
  obtain ⟨answers, runs⟩ := answers_and_run_from_boundary isBoundary
  rw [rest] at answers runs
  constructor
  · exact (answers [.peek, .next]).trans rfl
  · exact (congrArg Prod.fst (runs .empty)).trans rfl

end TeenyC
