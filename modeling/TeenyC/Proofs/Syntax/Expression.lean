import TeenyC.Proofs.Token.WellFormed

/-!
# Trees of expressions and comparisons

```text
comparison  := expression ( cmp-op expression )+
expression  := term { ("+" | "-") term }
term        := unary { ("*" | "/") unary }
unary       := [ "+" | "-" ] primary
primary     := NUMBER | IDENT
```

The types are the grammar: a chain has operators of one level between its items, a
unary has at most one sign, and a comparison at least one comparison operator.  A
phrase is anything that has tokens, a C text and variables that it reads.
-/

namespace TeenyC

namespace Kind

/-- The signs, which also join terms. -/
def isSign : Kind → Bool
  | plus | minus => true
  | _ => false

/-- The operators that join unaries. -/
def isScale : Kind → Bool
  | times | divide => true
  | _ => false

end Kind

namespace Syntax

/-- A piece of syntax: the tokens that spell it, the C text for it, and the
variables that it reads, in the order of the tokens. -/
class Phrase (α : Type) where
  tokens : α → List Token
  text : α → String
  reads : α → List String

/-! ## Operands and signs -/

/-- A number or a variable. -/
inductive Operand where
  | number (text : String)
  | reference (name : String)
  deriving DecidableEq

/-- The token of an operand. -/
def Operand.token : Operand → Token
  | number text => ⟨.number, text⟩
  | reference name => .ofName name

instance : Phrase Operand where
  tokens operand := [operand.token]
  text operand := operand.token.text
  reads
    | .number _ => []
    | .reference name => [name]

/-- An operand with at most one sign. -/
structure Unary where
  sign : Option { kind : Kind // kind.isSign = true }
  operand : Operand
  deriving DecidableEq

/-- The tokens of a sign, if there is one. -/
def signTokens (sign : Option { kind : Kind // kind.isSign = true }) : List Token :=
  (sign.map fun kind => Token.ofKind kind).toList

/-- The C text of a sign, if there is one. -/
def signText (sign : Option { kind : Kind // kind.isSign = true }) : String :=
  (sign.map fun kind => kind.1.spelling).getD ""

instance : Phrase Unary where
  tokens unary := signTokens unary.sign ++ Phrase.tokens unary.operand
  text unary := signText unary.sign ++ Phrase.text unary.operand
  reads unary := Phrase.reads unary.operand

/-! ## Chains -/

/-- Items with operators between them. -/
structure Chain (joins : Kind → Bool) (α : Type) where
  head : α
  tail : List ({ kind : Kind // joins kind = true } × α)
  deriving DecidableEq

section

variable {joins : Kind → Bool} {α : Type} [Phrase α]

/-- The tokens of the operators of a chain and the items after them. -/
def tailTokens (tail : List ({ kind : Kind // joins kind = true } × α)) : List Token :=
  tail.flatMap fun link => Token.ofKind link.1 :: Phrase.tokens link.2

/-- The C text of the operators of a chain and the items after them.  An operator
stands between spaces. -/
def tailText : List ({ kind : Kind // joins kind = true } × α) → String
  | [] => ""
  | (kind, item) :: rest => " " ++ kind.1.spelling ++ " " ++ Phrase.text item ++ tailText rest

/-- The variables in the items of a chain after its first. -/
def tailReads (tail : List ({ kind : Kind // joins kind = true } × α)) : List String :=
  tail.flatMap fun link => Phrase.reads link.2

instance : Phrase (Chain joins α) where
  tokens chain := Phrase.tokens chain.head ++ tailTokens chain.tail
  text chain := Phrase.text chain.head ++ tailText chain.tail
  reads chain := Phrase.reads chain.head ++ tailReads chain.tail

end

/-- A product of unaries. -/
abbrev Term := Chain Kind.isScale Unary

/-- A sum of terms. -/
abbrev Expression := Chain Kind.isSign Term

/-- Two expressions or more with comparisons between them. -/
structure Comparison extends Chain Kind.isComparison Expression where
  compares : tail ≠ []
  deriving DecidableEq

instance : Phrase Comparison where
  tokens comparison := Phrase.tokens comparison.toChain
  text comparison := Phrase.text comparison.toChain
  reads comparison := Phrase.reads comparison.toChain

/-- The expression that is a number. -/
def Expression.ofNumber (number : String) : Expression :=
  ⟨⟨⟨none, .number number⟩, []⟩, []⟩

end Syntax

end TeenyC
