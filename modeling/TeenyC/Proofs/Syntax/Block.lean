import TeenyC.Compile.Session
import TeenyC.Proofs.Syntax.Expression

/-!
# Trees of programs

```text
program     := { nl } { statement }
statement   := ( action | block | label-stmt | assignment ) nl
action      := "print" ( STRING | expression ) | IDENT
block       := "fn" IDENT nl { statement } "end"
             | ("if" | "while") "(" comparison ")" nl { statement } "end"
label-stmt  := "label" IDENT | "goto" IDENT
assignment  := "let" IDENT "=" expression | "input" IDENT
nl          := NEWLINE+
```

A tree also keeps how many blank lines follow each line end, so that the tokens of
a tree are the tokens of a program to the last line end.  `Lawful` states the rules
for names, on the list of all places where a program declares or uses a name.
-/

namespace TeenyC.Syntax

/-! ## Statements -/

/-- The word in front of a condition. -/
inductive Guard where
  | once
  | loop
  deriving DecidableEq

/-- The kind of the word: `if` or `while`. -/
def Guard.kind : Guard → Kind
  | once => .ifKeyword
  | loop => .whileKeyword

/-- A statement that holds no other statements, without its line end. -/
inductive Action where
  | printText (content : String)
  | printValue (value : Expression)
  | call (name : String)
  | label (name : String)
  | jump (name : String)
  | assign (name : String) (value : Expression)
  | input (name : String)
  deriving DecidableEq

/-- A sequence of statements.  Each line end comes with the number of blank lines
after it. -/
inductive Block where
  | nil
  | action (statement : Action) (gap : Nat) (rest : Block)
  | function (name : String) (gap : Nat) (body : Block) (endGap : Nat) (rest : Block)
  | guarded (guard : Guard) (condition : Comparison) (gap : Nat) (body : Block) (endGap : Nat)
      (rest : Block)
  deriving DecidableEq

/-- A program, with the number of blank lines before its first statement. -/
structure Program where
  leading : Nat
  body : Block
  deriving DecidableEq

/-! ## Tokens -/

/-- A line end with a number of blank lines after it. -/
def lineEnd (gap : Nat) : List Token :=
  List.replicate (gap + 1) .newline

/-- The tokens of an action. -/
def Action.tokens : Action → List Token
  | printText content => [.ofKind .printKeyword, ⟨.string, content⟩]
  | printValue value => .ofKind .printKeyword :: Phrase.tokens value
  | call name => [.ofName name]
  | label name => [.ofKind .labelKeyword, .ofName name]
  | jump name => [.ofKind .gotoKeyword, .ofName name]
  | assign name value =>
    .ofKind .letKeyword :: .ofName name :: .ofKind .assign :: Phrase.tokens value
  | input name => [.ofKind .inputKeyword, .ofName name]

/-- The tokens that start a function. -/
def functionHead (name : String) : List Token :=
  [.ofKind .fnKeyword, .ofName name]

/-- The tokens that start a block with a condition. -/
def guardHead (guard : Guard) (condition : Comparison) : List Token :=
  .ofKind guard.kind :: .ofKind .leftParen :: (Phrase.tokens condition ++ [.ofKind .rightParen])

/-- The tokens of a sequence of statements. -/
def Block.tokens : Block → List Token
  | nil => []
  | action statement gap rest => statement.tokens ++ lineEnd gap ++ rest.tokens
  | function name gap body endGap rest =>
    functionHead name ++ lineEnd gap ++ body.tokens ++
      .ofKind .endKeyword :: (lineEnd endGap ++ rest.tokens)
  | guarded guard condition gap body endGap rest =>
    guardHead guard condition ++ lineEnd gap ++ body.tokens ++
      .ofKind .endKeyword :: (lineEnd endGap ++ rest.tokens)

/-- All tokens of a program, the end of the input being the last. -/
def Program.tokens (program : Program) : List Token :=
  List.replicate program.leading .newline ++ program.body.tokens ++ [.endOfInput]

/-! ## Names -/

/-- What a program does with a name at some place. -/
inductive Event where
  /-- A function is declared. -/
  | header (name : String)
  /-- A function is called. -/
  | call (name : String)
  /-- A label is declared. -/
  | label (name : String)
  /-- A label is jumped to. -/
  | jump (name : String)
  /-- A variable is the target of `let` or `input`. -/
  | target (name : String)
  /-- A variable stands in an expression. -/
  | use (name : String)
  deriving DecidableEq

/-- An event in the body of a function. -/
structure Occurrence where
  /-- The function whose body the event is in. -/
  owner : String
  event : Event
  deriving DecidableEq

/-- What an action does with names, in the order of its tokens.  The target of `let`
comes before the expression. -/
def Action.events : Action → List Event
  | printText _ => []
  | printValue value => (Phrase.reads value).map .use
  | call name => [.call name]
  | label name => [.label name]
  | jump name => [.jump name]
  | assign name value => .target name :: (Phrase.reads value).map .use
  | input name => [.target name]

/-- The events of a list, all in one function. -/
def within (owner : String) (events : List Event) : List Occurrence :=
  events.map fun event => ⟨owner, event⟩

/-- What statements in the body of a function do with names, in the order of their
tokens. -/
def Block.occurrences (owner : String) : Block → List Occurrence
  | nil => []
  | action statement _ rest => within owner statement.events ++ rest.occurrences owner
  | function name _ body _ rest =>
    ⟨owner, .header name⟩ :: (body.occurrences name ++ rest.occurrences owner)
  | guarded _ condition _ body _ rest =>
    within owner ((Phrase.reads condition).map .use) ++
      (body.occurrences owner ++ rest.occurrences owner)

/-- What a program does with names.  Its statements outside all functions are in the
function `main`. -/
def Program.occurrences (program : Program) : List Occurrence :=
  program.body.occurrences mainFunction

/-- The functions declared, in order. -/
def headers (occurrences : List Occurrence) : List String :=
  occurrences.filterMap fun occurrence =>
    match occurrence.event with
    | .header name => some name
    | _ => none

/-- The labels declared, in order. -/
def labels (occurrences : List Occurrence) : List String :=
  occurrences.filterMap fun occurrence =>
    match occurrence.event with
    | .label name => some name
    | _ => none

/-- The labels jumped to, in order. -/
def jumps (occurrences : List Occurrence) : List String :=
  occurrences.filterMap fun occurrence =>
    match occurrence.event with
    | .jump name => some name
    | _ => none

theorem headers_append (first second : List Occurrence) :
    headers (first ++ second) = headers first ++ headers second :=
  List.filterMap_append

theorem labels_append (first second : List Occurrence) :
    labels (first ++ second) = labels first ++ labels second :=
  List.filterMap_append

theorem jumps_append (first second : List Occurrence) :
    jumps (first ++ second) = jumps first ++ jumps second :=
  List.filterMap_append

/-- The rules for names. -/
structure Lawful (occurrences : List Occurrence) : Prop where
  /-- No function is declared in the body of another. -/
  functionsOutside : ∀ ⦃owner name : String⦄,
    ⟨owner, .header name⟩ ∈ occurrences → owner = mainFunction
  /-- No function is declared twice. -/
  functionsDistinct : (headers occurrences).Nodup
  /-- No function is called `main`. -/
  mainReserved : mainFunction ∉ headers occurrences
  /-- A function is declared before its calls. -/
  callsDeclared : ∀ ⦃before after : List Occurrence⦄ ⦃owner name : String⦄,
    occurrences = before ++ ⟨owner, .call name⟩ :: after → name ∈ headers before
  /-- No label is declared twice. -/
  labelsDistinct : (labels occurrences).Nodup
  /-- A variable is a target in its function before it is used there. -/
  usesDeclared : ∀ ⦃before after : List Occurrence⦄ ⦃owner name : String⦄,
    occurrences = before ++ ⟨owner, .use name⟩ :: after → ⟨owner, .target name⟩ ∈ before
  /-- A label that is jumped to is declared somewhere. -/
  jumpsDeclared : ∀ ⦃name : String⦄, name ∈ jumps occurrences → name ∈ labels occurrences

/-! ## Sequences -/

/-- One sequence of statements after another. -/
def Block.append : Block → Block → Block
  | nil, second => second
  | action statement gap rest, second => action statement gap (rest.append second)
  | function name gap body endGap rest, second =>
    function name gap body endGap (rest.append second)
  | guarded guard condition gap body endGap rest, second =>
    guarded guard condition gap body endGap (rest.append second)

theorem Block.tokens_append (first second : Block) :
    (first.append second).tokens = first.tokens ++ second.tokens := by
  induction first with
  | nil => rfl
  | action statement gap rest inductionHypothesis =>
      simp [append, tokens, inductionHypothesis]
  | function name gap body endGap rest _ inductionHypothesis =>
      simp [append, tokens, inductionHypothesis]
  | guarded guard condition gap body endGap rest _ inductionHypothesis =>
      simp [append, tokens, inductionHypothesis]

theorem Block.occurrences_append (owner : String) (first second : Block) :
    (first.append second).occurrences owner =
      first.occurrences owner ++ second.occurrences owner := by
  induction first with
  | nil => rfl
  | action statement gap rest inductionHypothesis =>
      simp [append, occurrences, inductionHypothesis]
  | function name gap body endGap rest _ inductionHypothesis =>
      simp [append, occurrences, inductionHypothesis]
  | guarded guard condition gap body endGap rest _ inductionHypothesis =>
      simp [append, occurrences, inductionHypothesis]

end TeenyC.Syntax
