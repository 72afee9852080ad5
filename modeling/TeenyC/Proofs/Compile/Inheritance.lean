import TeenyC.Proofs.Compile.Parts

/-!
# Properties that rules inherit from their parts

All grammar rules are put together from a few steps: going to the next token, writing, and
entering names into the tables.  A property of rules is inherited if it holds of these steps
and is passed on to sequences and choices of rules that have it.  Then every rule of the
grammar has it, as soon as the declaration of a function passes it on from the statements in
its body.

The declaration of a function is left out, as it is no mere sequence of parts with the property:
it selects a section and changes the current function, and takes both back in the end.  Where a
property holds of either change too, it is inherited by declarations as well.
-/

namespace TeenyC

/-- The error is found by a rule at the current token.  Lexical errors come from going to the next
token, and a jump to an unknown label is found behind the last statement. -/
def Error.AtOnce : Error → Prop
  | .lexical _ | .semantic (.unknownLabel _) => False
  | _ => True

namespace Rule

/-- The choice depends neither on the C text nor on the lexer, but for the number of bytes that are
unread. -/
def Blind {β : Type} (choice : Session → β) : Prop :=
  ∀ (session : Session) (unit : CUnit) (lexer : Lexer),
    lexer.unread = session.lexer.unread → choice { session with unit, lexer } = choice session

/-- The choice may depend on the active section besides. -/
def BlindInSection {β : Type} (choice : Session → β) : Prop :=
  ∀ (session : Session) (unit : CUnit) (lexer : Lexer), unit.active = session.unit.active →
    lexer.unread = session.lexer.unread → choice { session with unit, lexer } = choice session

theorem blind_remaining : Blind Session.remaining :=
  fun _ _ _ same => congrArg (· + 2) same

/-- The property holds of the steps of a pass, and is passed on from the parts of a rule to the
rule. -/
structure Inherited (holds : ∀ α : Type, Rule α → Prop) : Prop where
  pure : ∀ {α : Type} (value : α), holds α (pure value)
  bind : ∀ {α β : Type} {rule : Rule α} {next : α → Rule β}, holds α rule →
    (∀ value, holds β (next value)) → holds β (rule >>= next)
  throw : ∀ {α : Type} {error : Error}, error.AtOnce → holds α (throw error)
  /-- A choice that depends on the session, but neither on the C text nor on the lexer. -/
  look : ∀ {α : Type} {next : Session → Rule α}, Blind next →
    (∀ session, holds α (next session)) → holds α (get >>= next)
  shift : holds Unit shift
  write : ∀ text, holds Unit (write text)
  addLabel : ∀ name, holds Unit
    (modify fun session => { session with labels := session.labels.insert name })
  addTarget : ∀ name, holds Unit
    (modify fun session => { session with targets := session.targets.insert name })
  declareVariable : ∀ name, holds Unit (declareVariable name)

namespace Inherited

variable {holds : ∀ α : Type, Rule α → Prop} (inherited : Inherited holds)
include inherited

/-! ## Tokens and repetition -/

theorem writeLine (text : String) : holds Unit (writeLine text) :=
  inherited.write (text ++ "\n")

theorem expect (kind : Kind) : holds Unit (expect kind) := by
  apply inherited.look (fun _ _ _ _ => rfl)
  intro session
  dsimp only
  split
  · exact inherited.shift
  · exact inherited.throw trivial

theorem identifier : holds String identifier := by
  apply inherited.look (fun _ _ _ _ => rfl)
  intro session
  exact inherited.bind (inherited.expect _) fun _ => inherited.pure _

variable {condition : Session → Bool} {rule inner : Rule Unit}

theorem repeatAtMost (blind : Blind condition)
    (ofRule : holds Unit rule) (n : Nat) : holds Unit (repeatAtMost condition rule n) := by
  induction n with
  | zero => exact inherited.pure ()
  | succ n inductionHypothesis =>
      apply inherited.look
      · intro session unit lexer same
        dsimp only
        rw [blind session unit lexer same]
      · intro session
        split
        · exact inherited.bind ofRule fun _ => inductionHypothesis
        · exact inherited.pure ()

theorem repeatWhile (blind : Blind condition)
    (ofRule : holds Unit rule) : holds Unit (repeatWhile condition rule) :=
  inherited.look
    (fun session unit lexer same =>
      congrArg (Rule.repeatAtMost condition rule) (blind_remaining session unit lexer same))
    fun _ => inherited.repeatAtMost blind ofRule _

theorem skipNewlines : holds Unit skipNewlines :=
  inherited.repeatWhile (fun _ _ _ _ => rfl) inherited.shift

theorem lineEnd : holds Unit lineEnd :=
  inherited.bind (inherited.expect _) fun _ => inherited.skipNewlines

/-! ## Expressions -/

theorem binaryOperator : holds Unit binaryOperator :=
  inherited.look (fun _ _ _ _ => rfl) fun _ =>
    inherited.bind (inherited.write _) fun _ => inherited.shift

theorem primary : holds Unit primary := by
  apply inherited.look (fun _ _ _ _ => rfl)
  intro session
  have operand : holds Unit (Rule.write session.current.text >>= fun _ => Rule.shift) :=
    inherited.bind (inherited.write _) fun _ => inherited.shift
  dsimp only
  split
  · exact operand
  · split
    · exact inherited.bind (inherited.throw trivial) fun _ => operand
    · exact operand
  · exact inherited.bind (inherited.throw trivial) fun _ => operand

theorem unary : holds Unit unary := by
  apply inherited.look (fun _ _ _ _ => rfl)
  intro session
  split
  · exact inherited.bind (inherited.write _) fun _ =>
      inherited.bind inherited.shift fun _ => inherited.primary
  · exact inherited.primary

/-- Operands with operators in front of them. -/
theorem operators (blind : Blind condition)
    (operand : holds Unit rule) :
    holds Unit (Rule.repeatWhile condition (Rule.binaryOperator >>= fun _ => rule)) :=
  inherited.repeatWhile blind (inherited.bind inherited.binaryOperator fun _ => operand)

theorem term : holds Unit term :=
  inherited.bind inherited.unary fun _ => inherited.operators (fun _ _ _ _ => rfl) inherited.unary

theorem expression : holds Unit expression :=
  inherited.bind inherited.term fun _ => inherited.operators (fun _ _ _ _ => rfl) inherited.term

theorem comparison : holds Unit comparison := by
  apply inherited.bind inherited.expression
  intro _
  apply inherited.look (fun _ _ _ _ => rfl)
  intro session
  dsimp only
  split
  · exact inherited.bind (inherited.throw trivial) fun _ =>
      inherited.operators (fun _ _ _ _ => rfl) inherited.expression
  · exact inherited.operators (fun _ _ _ _ => rfl) inherited.expression

/-! ## Statements without blocks -/

theorem printStatement : holds Unit printStatement := by
  apply inherited.bind inherited.shift
  intro _
  apply inherited.look (fun _ _ _ _ => rfl)
  intro session
  dsimp only
  split
  · exact inherited.bind (inherited.writeLine _) fun _ => inherited.shift
  · exact inherited.bind (inherited.write _) fun _ =>
      inherited.bind inherited.expression fun _ => inherited.writeLine _

theorem callStatement : holds Unit callStatement := by
  apply inherited.look (fun _ _ _ _ => rfl)
  intro session
  have call : holds Unit
      (Rule.writeLine (session.current.text ++ "();") >>= fun _ => Rule.shift) :=
    inherited.bind (inherited.writeLine _) fun _ => inherited.shift
  dsimp only
  split
  · exact inherited.bind (inherited.throw trivial) fun _ => call
  · exact call

/-- A keyword and a name, and what is done with the name. -/
theorem named {next : String → Rule Unit} (ofNext : ∀ name, holds Unit (next name)) :
    holds Unit (Rule.shift >>= fun _ => Rule.identifier >>= next) :=
  inherited.bind inherited.shift fun _ => inherited.bind inherited.identifier ofNext

theorem labelStatement : holds Unit labelStatement := by
  apply inherited.named
  intro name
  apply inherited.look (fun _ _ _ _ => rfl)
  intro session
  have declared : holds Unit ((modify fun session : Session =>
      { session with labels := session.labels.insert name }) >>= fun _ =>
        Rule.writeLine (name ++ ":;")) :=
    inherited.bind (inherited.addLabel name) fun _ => inherited.writeLine _
  split
  · exact inherited.bind (inherited.throw trivial) fun _ => declared
  · exact declared

theorem gotoStatement : holds Unit gotoStatement :=
  inherited.named fun name =>
    inherited.bind (inherited.writeLine _) fun _ => inherited.addTarget name

theorem letStatement : holds Unit letStatement :=
  inherited.named fun name =>
    inherited.bind (inherited.declareVariable name) fun _ =>
      inherited.bind (inherited.write _) fun _ =>
        inherited.bind (inherited.expect _) fun _ =>
          inherited.bind inherited.expression fun _ => inherited.writeLine _

theorem inputStatement : holds Unit inputStatement :=
  inherited.named fun name =>
    inherited.bind (inherited.declareVariable name) fun _ =>
      inherited.bind (inherited.writeLine _) fun _ =>
        inherited.bind (inherited.writeLine _) fun _ =>
          inherited.bind (inherited.writeLine _) fun _ => inherited.writeLine _

/-! ## Blocks -/

theorem blockBody (ofInner : holds Unit inner) : holds Unit (blockBody inner) :=
  inherited.bind inherited.lineEnd fun _ =>
    inherited.bind (inherited.repeatWhile (fun _ _ _ _ => rfl) ofInner) fun _ => inherited.expect _

theorem conditionalHead (word : String) : holds Unit (conditionalHead word) :=
  inherited.bind inherited.shift fun _ =>
    inherited.bind (inherited.expect _) fun _ =>
      inherited.bind (inherited.write _) fun _ =>
        inherited.bind inherited.comparison fun _ =>
          inherited.bind (inherited.expect _) fun _ => inherited.writeLine _

theorem conditionalBlock (word : String) (ofInner : holds Unit inner) :
    holds Unit (conditionalBlock word inner) := by
  rw [conditionalBlock_eq]
  exact inherited.bind (inherited.conditionalHead word) fun _ =>
    inherited.bind (inherited.blockBody ofInner) fun _ => inherited.writeLine _

/-! ## Functions -/

section Functions

variable
  (lookAtSection : ∀ {next : Session → Rule Unit}, BlindInSection next →
    (∀ session, holds Unit (next session)) → holds Unit (get >>= next))
  (enter : ∀ name, holds Unit (modify fun session =>
    (session.enter name).write ("void " ++ name ++ "() \x7b" ++ "\n")))
include lookAtSection enter

/-- The declaration of a function looks at the active section, once for being in a function. -/
theorem functionHead : holds Unit functionHead := by
  apply lookAtSection
  · intro session unit lexer sameSection _
    dsimp only
    rw [sameSection]
  · intro session
    split
    · exact inherited.throw trivial
    · apply inherited.named
      intro name
      apply inherited.look (fun _ _ _ _ => rfl)
      intro session
      split
      · exact inherited.throw trivial
      · exact enter name

theorem functionDeclaration (leave : holds Unit functionEnd) (ofInner : holds Unit inner) :
    holds Unit (Rule.functionDeclaration inner) := by
  rw [functionDeclaration_eq]
  exact inherited.bind (inherited.functionHead lookAtSection enter) fun _ =>
    inherited.bind (inherited.blockBody ofInner) fun _ => leave

end Functions

/-! ## Statements and programs -/

theorem statementOver (ofInner : holds Unit inner)
    (ofDeclaration : holds Unit (Rule.functionDeclaration inner)) :
    holds Unit (statementOver inner) := by
  have line : ∀ {rule : Rule Unit}, holds Unit rule →
      holds Unit (rule >>= fun _ => Rule.lineEnd) :=
    fun ofRule => inherited.bind ofRule fun _ => inherited.lineEnd
  apply inherited.look (fun _ _ _ _ => rfl)
  intro session
  dsimp only
  split
  · exact line inherited.printStatement
  · exact line inherited.callStatement
  · exact line ofDeclaration
  · exact line (inherited.conditionalBlock _ ofInner)
  · exact line (inherited.conditionalBlock _ ofInner)
  · exact line inherited.labelStatement
  · exact line inherited.gotoStatement
  · exact line inherited.letStatement
  · exact line inherited.inputStatement
  · exact line (inherited.throw trivial)

theorem finish
    (ofUnknown : ∀ name, holds Summary (MonadExcept.throw (Error.semantic (.unknownLabel name)))) :
    holds Summary finish := by
  apply inherited.bind (inherited.writeLine _)
  intro _
  apply inherited.bind (inherited.writeLine _)
  intro _
  apply inherited.look (fun _ _ _ _ => rfl)
  intro session
  split
  · exact ofUnknown _
  · exact inherited.pure _

theorem programBody
    (ofUnknown : ∀ name, holds Summary (MonadExcept.throw (Error.semantic (.unknownLabel name))))
    (ofInner : holds Unit inner) : holds Summary (programBody inner) :=
  inherited.bind inherited.skipNewlines fun _ =>
    inherited.bind (inherited.repeatWhile (fun _ _ _ _ => rfl) ofInner) fun _ =>
      inherited.finish ofUnknown

section Statements

variable (ofDeclaration : ∀ ⦃inner : Rule Unit⦄, holds Unit inner →
  holds Unit (Rule.functionDeclaration inner))
include ofDeclaration

/-- Every statement has an inherited property, however deep its blocks are nested. -/
theorem statementWithin (depth : Nat) : holds Unit (statementWithin depth) := by
  induction depth with
  | zero => exact inherited.pure ()
  | succ depth inductionHypothesis =>
      exact inherited.statementOver inductionHypothesis (ofDeclaration inductionHypothesis)

theorem statement : holds Unit statement :=
  inherited.look
    (fun session unit lexer same =>
      congrArg Rule.statementWithin (blind_remaining session unit lexer same))
    fun _ => inherited.statementWithin ofDeclaration _

end Statements

end Inherited

/-! ## Declaring a variable -/

/-- A variable that is known already is not declared again. -/
theorem declareVariable_eq (name : String) (session : Session) :
    declareVariable name session =
      .ok () (if session.table.declares session.function name then session
        else Session.write
          { session with table := session.table.declare session.function name }
          ("float " ++ name ++ ";" ++ "\n")) := by
  rw [declareVariable, get_bind]
  cases session.table.declares session.function name <;> rfl

end Rule

end TeenyC
