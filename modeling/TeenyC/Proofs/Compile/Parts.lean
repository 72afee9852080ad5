import TeenyC.Proofs.Compile.Agreement

/-!
# Blocks in parts

A block is a head, a body of statements and an end, and a program is a frame around its
statements.  The statements are the only part that calls the rule for statements again.
-/

namespace TeenyC.Rule

/-- A function declaration up to its body. -/
def functionHead : Rule Unit := do
  if (← get).unit.active = .functions then
    throw (.semantic .nestedFunction)
  shift
  let name ← identifier
  if name = mainFunction || (← get).functions.contains name then
    throw (.semantic (.duplicateFunction name))
  modify fun session => (session.enter name).write ("void " ++ name ++ "() \x7b" ++ "\n")

/-- What follows the body of a function. -/
def functionEnd : Rule Unit :=
  modify fun session => (session.write ("\x7d" ++ "\n")).leave

theorem functionDeclaration_eq (inner : Rule Unit) :
    functionDeclaration inner =
      functionHead >>= fun _ => blockBody inner >>= fun _ => functionEnd := by
  funext session
  simp only [functionDeclaration, functionHead, bind_assoc, get_bind]
  split
  · rfl
  · simp only [bind_assoc]
    apply bind_congr
    intro _ afterKeyword _
    apply bind_congr
    intro name afterName _
    simp only [get_bind]
    split
    · rfl
    · rfl

/-- A block with a condition, up to its body. -/
def conditionalHead (word : String) : Rule Unit := do
  shift
  expect .leftParen
  write (word ++ " (")
  comparison
  expect .rightParen
  writeLine ") \x7b"

theorem conditionalBlock_eq (word : String) (inner : Rule Unit) :
    conditionalBlock word inner =
      conditionalHead word >>= fun _ => blockBody inner >>= fun _ => writeLine "\x7d" := by
  simp only [conditionalBlock, conditionalHead, bind_assoc]

/-- A statement without its line end, given the rule for the statements inside it. -/
def unendedStatement (inner : Rule Unit) : Rule Unit := do
  let token := (← get).current
  match token.kind with
  | .printKeyword => printStatement
  | .identifier => callStatement
  | .fnKeyword => functionDeclaration inner
  | .ifKeyword => conditionalBlock "if" inner
  | .whileKeyword => conditionalBlock "while" inner
  | .labelKeyword => labelStatement
  | .gotoKeyword => gotoStatement
  | .letKeyword => letStatement
  | .inputKeyword => inputStatement
  | _ => throw (.syntactic (.notAStatement token))

theorem statementOver_eq (inner : Rule Unit) :
    statementOver inner = unendedStatement inner >>= fun _ => lineEnd := by
  funext session
  simp only [statementOver, unendedStatement, bind_assoc, get_bind]
  cases session.current.kind <;> rfl

/-- The statements of a program and what follows them, given the rule for statements. -/
def programBody (inner : Rule Unit) : Rule Summary := do
  skipNewlines
  repeatWhile (fun there => !there.isAt .endOfInput) inner
  finish

/-- The whole program, given the rule for its statements. -/
def programOver (inner : Rule Unit) : Rule Summary := fun session =>
  programBody inner session.openMain

theorem program_eq : program = programOver statement := rfl

end TeenyC.Rule
