import SableFrontend.Text.CharClass
import SableFrontend.Text.Quoted
import SableFrontend.Text.Lines
import SableFrontend.Text.Slice
import SableFrontend.Source.Text
import SableFrontend.Token.Lexing
import SableFrontend.Token.Stream
import SableFrontend.Token.BracketForm
import SableFrontend.Diagnostic.Basic
import SableFrontend.Number.Shortest
import SableFrontend.Tree.Expr
import SableFrontend.Tree.Outlines
import SableFrontend.Grammar.Parser
import SableFrontend.Grammar.Pattern
import SableFrontend.Grammar.Type
import SableFrontend.Grammar.Operator
import SableFrontend.Grammar.Grouping
import SableFrontend.Grammar.Declaration
import SableFrontend.Grammar.Source
import SableFrontend.Diagnostic.Rendering
import SableFrontend.Highlight.Stretch
import SableFrontend.Editor.Store
import SableFrontend.Toml.Document
import SableFrontend.Command.Run
import SableFrontend.Main
import SableFrontend.Tree.Comparison
import SableFrontend.Proofs.Token.Tiling
import SableFrontend.Proofs.Grammar.Recovery
import SableFrontend.Proofs.Grammar.Outcome
import SableFrontend.Proofs.Parallel.Deletion
import SableFrontend.Proofs.Parallel.Composition
import SableFrontend.Proofs.Parallel.Layout
import SableFrontend.Proofs.Parallel.Block
import SableFrontend.Proofs.Grammar.Brackets
import SableFrontend.Proofs.Grammar.Formation
import SableFrontend.Proofs.Token.Delimiters
import SableFrontend.Proofs.Placement.Module
import SableFrontend.Proofs.Token.Places
import SableFrontend.Proofs.Editor.Store
import SableFrontend.Proofs.Project.Settings
import SableFrontend.Proofs.Files.Tree
import SableFrontend.Proofs.Token.Naming
import SableFrontend.Proofs.Project.Scaffold
import SableFrontend.Proofs.Highlight.Shade
import SableFrontend.Proofs.Highlight.Rules
import SableFrontend.Proofs.Highlight.Stretches
import SableFrontend.Proofs.Highlight.Agreement
import SableFrontend.Proofs.Branches.Declaration
import SableFrontend.Proofs.Token.BracketLimit
import SableFrontend.Proofs.Grammar.Climbing
import SableFrontend.Proofs.Parallel.Padding
import SableFrontend.Proofs.Grammar.Level
import SableFrontend.Proofs.Parallel.Exchange
import SableFrontend.Proofs.Tree.Conservation
import SableFrontend.Proofs.Sentences.TypeSentence
import SableFrontend.Proofs.Sentences.TypeSpelling
import SableFrontend.Proofs.Sentences.PatternSpelling
import SableFrontend.Proofs.Sentences.Attempt
import SableFrontend.Proofs.Token.IntegerLiteral
import SableFrontend.Proofs.Grammar.Budget
import SableFrontend.Proofs.Token.Defining
import SableFrontend.Proofs.Parallel.SoleDefinition
import SableFrontend.Proofs.Grammar.Muted
import SableFrontend.Proofs.Parallel.Parentheses
import SableFrontend.Proofs.Parallel.Clauses
import SableFrontend.Proofs.Token.Positions
import SableFrontend.Proofs.Token.QuotedLiteral
import SableFrontend.Proofs.Diagnostic.Excerpt
import SableFrontend.Proofs.Source.SpanText
import SableFrontend.Proofs.Editor.WordAt
import SableFrontend.Proofs.Editor.Completion
import SableFrontend.Proofs.Editor.Hover
import SableFrontend.Proofs.Grammar.Searching
import SableFrontend.Proofs.Highlight.Operators
import SableFrontend.Proofs.Command.View
