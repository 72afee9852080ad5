import TeenyC.CUnit.Basic
import TeenyC.CUnit.Sink
import TeenyC.Command.Failure
import TeenyC.Command.Host
import TeenyC.Command.Options
import TeenyC.Command.Run
import TeenyC.Command.World
import TeenyC.Compile.Expression
import TeenyC.Compile.Output
import TeenyC.Compile.Program
import TeenyC.Compile.Session
import TeenyC.Compile.Statement
import TeenyC.Compile.Variables
import TeenyC.Error
import TeenyC.FileTree.Basic
import TeenyC.FileTree.Change
import TeenyC.FileTree.IoError
import TeenyC.FileTree.Location
import TeenyC.FileTree.Resolve
import TeenyC.Format
import TeenyC.Main
import TeenyC.NameSet
import TeenyC.Path
import TeenyC.Proofs.BlockScope
import TeenyC.Proofs.Compile.Action
import TeenyC.Proofs.Compile.Advance
import TeenyC.Proofs.Compile.Ahead
import TeenyC.Proofs.Compile.Lockstep
import TeenyC.Proofs.Compile.Calculus
import TeenyC.Proofs.Compile.Cursor
import TeenyC.Proofs.Compile.Expression
import TeenyC.Proofs.Compile.Names
import TeenyC.Proofs.Compile.Program
import TeenyC.Proofs.Compile.Repetition
import TeenyC.Proofs.Compile.Statement
import TeenyC.Proofs.Lossless
import TeenyC.Proofs.Syntax.Block
import TeenyC.Proofs.Syntax.Body
import TeenyC.Proofs.Syntax.Expression
import TeenyC.Proofs.Syntax.Generator
import TeenyC.Proofs.Syntax.Layout
import TeenyC.Proofs.Syntax.LineText
import TeenyC.Proofs.Syntax.Reading
import TeenyC.Proofs.Syntax.Spelling
import TeenyC.Proofs.Syntax.Text
import TeenyC.Proofs.Syntax.Unambiguous
import TeenyC.Proofs.Token.Drain
import TeenyC.Proofs.Token.Grammar
import TeenyC.Proofs.Token.Supply
import TeenyC.Proofs.Token.WellFormed
import TeenyC.Source
import TeenyC.Text.CharRanges
import TeenyC.Text.Column
import TeenyC.Text.Escape
import TeenyC.Text.GraphemeExtend
import TeenyC.Text.Unprintable
import TeenyC.Text.Utf8
import TeenyC.Token.Basic
import TeenyC.Token.Kind
import TeenyC.Token.Lexeme
import TeenyC.Token.Lexer
import TeenyC.Token.Listing
import TeenyC.Proofs.Compile.Agreement
import TeenyC.Proofs.BlankLines
import TeenyC.Proofs.FirstFault
import TeenyC.Proofs.Syntax.Placement
import TeenyC.Proofs.Jumps
import TeenyC.Proofs.Assignment
import TeenyC.Proofs.Collision
import TeenyC.Proofs.Token.Boundary
import TeenyC.Proofs.Compile.OnDemand
import TeenyC.Proofs.CharacterBoundary
import TeenyC.Proofs.Token.Printing
import TeenyC.Proofs.Delivery
import TeenyC.Proofs.Command.Task
import TeenyC.Proofs.Command.Journal
import TeenyC.Proofs.SourceOrder
import TeenyC.Proofs.FailedRun
import TeenyC.Proofs.FileTree.Walk
import TeenyC.Proofs.FileTree.Growth
import TeenyC.Proofs.FileTree.Search
import TeenyC.Proofs.FileTree.Output
import TeenyC.Proofs.DirectoryRun
import TeenyC.Proofs.FileTree.WellFormed
import TeenyC.Proofs.Compile.Parts
import TeenyC.Proofs.Compile.Inheritance
import TeenyC.Proofs.Compile.Calls
import TeenyC.Proofs.Hoisting
import TeenyC.Proofs.SharedUnit
import TeenyC.Proofs.Coherence
import TeenyC.Proofs.BuildProducts
import TeenyC.Proofs.CText.Token
import TeenyC.Proofs.ExpressionTokens
import TeenyC.Proofs.NumberLiterals
import TeenyC.Proofs.CText.Lines
import TeenyC.Proofs.Syntax.Following
import TeenyC.Proofs.Declarations
import TeenyC.Proofs.StringLiterals
import TeenyC.Proofs.LineByLine
import TeenyC.Proofs.Text.Unescape
import TeenyC.Proofs.TokenListing
import TeenyC.Proofs.UnknownLabels
import TeenyC.Proofs.FileTree.Continuation
import TeenyC.Proofs.SourceSearch
import TeenyC.Proofs.SparedInput
import TeenyC.Proofs.AfterFault
import TeenyC.Proofs.Token.Answers
import TeenyC.Proofs.MovedText
import TeenyC.Proofs.Command.Perform
import TeenyC.Proofs.Command.FileHost
import TeenyC.Proofs.StoppedRun
import TeenyC.Proofs.Compile.Spending
import TeenyC.Proofs.DrainingEnds
import TeenyC.Proofs.Compile.Nesting
import TeenyC.Proofs.Progress
