import SearchFilter.Access.Consultation
import SearchFilter.Access.Directory
import SearchFilter.Access.Filter
import SearchFilter.Column
import SearchFilter.CommandLine
import SearchFilter.Compile
import SearchFilter.Compile.Issue
import SearchFilter.Condition
import SearchFilter.Condition.Parameters
import SearchFilter.Condition.Piece
import SearchFilter.Condition.Placeholder
import SearchFilter.Condition.Test
import SearchFilter.Dialect
import SearchFilter.Encoding.Access
import SearchFilter.Encoding.Decode
import SearchFilter.Encoding.ExpressionText
import SearchFilter.Encoding.Json
import SearchFilter.Encoding.Model
import SearchFilter.Encoding.Numeral
import SearchFilter.Encoding.Printer
import SearchFilter.Encoding.Reader
import SearchFilter.Encoding.Skip
import SearchFilter.Encoding.Token
import SearchFilter.Expression
import SearchFilter.Field
import SearchFilter.Formula
import SearchFilter.Main
import SearchFilter.Pattern
import SearchFilter.Proofs.Access.Consultation
import SearchFilter.Proofs.Access.Containment
import SearchFilter.Proofs.Access.FailClosed
import SearchFilter.Proofs.Access.Issues
import SearchFilter.Proofs.Access.Joins
import SearchFilter.Proofs.Access.Meaning
import SearchFilter.Proofs.Access.Order
import SearchFilter.Proofs.Access.Outcome
import SearchFilter.Proofs.Access.Parts
import SearchFilter.Proofs.Access.Protocol
import SearchFilter.Proofs.Access.Same
import SearchFilter.Proofs.Collection
import SearchFilter.Proofs.Collection.Gathering
import SearchFilter.Proofs.Columns
import SearchFilter.Proofs.Compile.Admission
import SearchFilter.Proofs.Compile.Branches
import SearchFilter.Proofs.Compile.Comparison
import SearchFilter.Proofs.Compile.Dialects
import SearchFilter.Proofs.Compile.Fragment
import SearchFilter.Proofs.Compile.Grammar
import SearchFilter.Proofs.Compile.Inlined
import SearchFilter.Proofs.Compile.LetterCase
import SearchFilter.Proofs.Compile.Membership
import SearchFilter.Proofs.Compile.Merged
import SearchFilter.Proofs.Compile.Negation
import SearchFilter.Proofs.Compile.Operands
import SearchFilter.Proofs.Compile.Outline
import SearchFilter.Proofs.Compile.Reading
import SearchFilter.Proofs.Compile.Record
import SearchFilter.Proofs.Compile.Rejection
import SearchFilter.Proofs.Compile.Restriction
import SearchFilter.Proofs.Compile.Row
import SearchFilter.Proofs.Compile.Secrecy
import SearchFilter.Proofs.Compile.Slots
import SearchFilter.Proofs.Compile.Text
import SearchFilter.Proofs.Compile.Validation
import SearchFilter.Proofs.Condition.Filling
import SearchFilter.Proofs.Condition.Fresh
import SearchFilter.Proofs.Condition.Inlined
import SearchFilter.Proofs.Condition.Leftmost
import SearchFilter.Proofs.Condition.Namespace
import SearchFilter.Proofs.Condition.Outline
import SearchFilter.Proofs.Condition.Reading
import SearchFilter.Proofs.Condition.Scan
import SearchFilter.Proofs.Condition.Slot
import SearchFilter.Proofs.Condition.Tidy
import SearchFilter.Proofs.Encoding.Expression
import SearchFilter.Proofs.Encoding.Parts
import SearchFilter.Proofs.Encoding.Term
import SearchFilter.Proofs.Formula.Admit
import SearchFilter.Proofs.Formula.Merged
import SearchFilter.Proofs.Formula.Normal
import SearchFilter.Proofs.Formula.Remaining
import SearchFilter.Proofs.Formula.Sift
import SearchFilter.Proofs.Formula.Value
import SearchFilter.Proofs.Pattern.AnyCase
import SearchFilter.Proofs.Pattern.Glob
import SearchFilter.Proofs.Pattern.LetterCase
import SearchFilter.Proofs.Pattern.Lexemes
import SearchFilter.Proofs.Pattern.Query
import SearchFilter.Proofs.Regex.Element
import SearchFilter.Proofs.Regex.Isolation
import SearchFilter.Proofs.Regex.Literal
import SearchFilter.Proofs.Regex.Matching
import SearchFilter.Proofs.Regex.Plain
import SearchFilter.Proofs.Regex.Reading
import SearchFilter.Proofs.Selector.Canonical
import SearchFilter.Proofs.Selector.Complement
import SearchFilter.Proofs.Selector.Derivation
import SearchFilter.Proofs.Selector.Grammar
import SearchFilter.Proofs.Selector.Grouping
import SearchFilter.Proofs.Selector.Issues
import SearchFilter.Proofs.Selector.Meaning
import SearchFilter.Proofs.Selector.PlainRegex
import SearchFilter.Proofs.Selector.Position
import SearchFilter.Proofs.Selector.Prefix
import SearchFilter.Proofs.Selector.Token
import SearchFilter.Proofs.Selector.Translation
import SearchFilter.Proofs.Selector.Unknown
import SearchFilter.Proofs.Settings
import SearchFilter.Proofs.Sql.Literal
import SearchFilter.Proofs.Sql.Operand
import SearchFilter.Proofs.Sql.Reading
import SearchFilter.Proofs.Sql.Token
import SearchFilter.Proofs.Sql.Tree
import SearchFilter.Proofs.Sql.Truth
import SearchFilter.Proofs.Text.Inert
import SearchFilter.Proofs.Text.Lowercase
import SearchFilter.Proofs.Text.Settled
import SearchFilter.Proofs.Text.Split
import SearchFilter.Selector
import SearchFilter.Selector.Expression
import SearchFilter.Selector.Reader
import SearchFilter.Settings
import SearchFilter.Settings.Options
import SearchFilter.Term
import SearchFilter.Text.Alphanumeric
import SearchFilter.Text.Basic
import SearchFilter.Text.CaseContext
import SearchFilter.Text.Lowercase
