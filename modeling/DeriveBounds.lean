import DeriveBounds.Batch
import DeriveBounds.Body
import DeriveBounds.Body.Clone
import DeriveBounds.Body.Debug
import DeriveBounds.Body.Default
import DeriveBounds.Body.PartialEq
import DeriveBounds.Body.Place
import DeriveBounds.Capability
import DeriveBounds.Classify
import DeriveBounds.CommandLine
import DeriveBounds.Config
import DeriveBounds.ConfigError
import DeriveBounds.Consolidate
import DeriveBounds.Definition
import DeriveBounds.Derive
import DeriveBounds.DeriveError
import DeriveBounds.ErrorCode
import DeriveBounds.Event
import DeriveBounds.Identifier
import DeriveBounds.ImplItem
import DeriveBounds.Listing
import DeriveBounds.Logging
import DeriveBounds.Main
import DeriveBounds.Path
import DeriveBounds.Registry
import DeriveBounds.Requirement
import DeriveBounds.Run
import DeriveBounds.SourceFile
import DeriveBounds.Step
import DeriveBounds.Summary
import DeriveBounds.Text.Blank
import DeriveBounds.Text.Decimal
import DeriveBounds.Text.Digit
import DeriveBounds.Text.Layout
import DeriveBounds.Text.Line
import DeriveBounds.Text.Quoted
import DeriveBounds.Text.Visible
import DeriveBounds.Token
import DeriveBounds.Token.Lexer
import DeriveBounds.TypeExpr
import DeriveBounds.TypeExpr.Fault
import DeriveBounds.TypeExpr.Mention
import DeriveBounds.TypeExpr.Parser
import DeriveBounds.TypeExpr.Printer
import DeriveBounds.Value
import DeriveBounds.Workspace
import DeriveBounds.Written
import DeriveBounds.Xml.Document
import DeriveBounds.Xml.Element
import DeriveBounds.Xml.Fault
import DeriveBounds.Xml.Markup
import DeriveBounds.Xml.NameChar
import DeriveBounds.Xml.Namespace
import DeriveBounds.Xml.Prolog
import DeriveBounds.Proofs.Outcome
import DeriveBounds.Proofs.Bounds.Consolidated
import DeriveBounds.Proofs.Bounds.Required
import DeriveBounds.Proofs.Classified
import DeriveBounds.Proofs.Bounds.Exact
import DeriveBounds.Proofs.Token.Spelling
import DeriveBounds.Proofs.TypeExpr.Grammar
import DeriveBounds.Proofs.TypeExpr.ReaderStep
import DeriveBounds.Proofs.TypeExpr.Recognition
import DeriveBounds.Proofs.TypeExpr.Canonical
import DeriveBounds.Proofs.TypeExpr.Stable
import DeriveBounds.Proofs.Classified.Shape
import DeriveBounds.Proofs.Bounds.Refusal
import DeriveBounds.Proofs.Derivation.Accounts
import DeriveBounds.Proofs.Derivation.SharedBounds
import DeriveBounds.Proofs.Body.Marks
import DeriveBounds.Proofs.Body.Words
import DeriveBounds.Proofs.Body.Uses
import DeriveBounds.Proofs.Body.Agreement
import DeriveBounds.Proofs.Capability
import DeriveBounds.Proofs.Classified.Keys
import DeriveBounds.Proofs.Classified.Coherent
import DeriveBounds.Proofs.Classified.Unreadable
import DeriveBounds.Proofs.Derivation.Total
import DeriveBounds.Proofs.TypeExpr.Scan
import DeriveBounds.Proofs.Workspace
import DeriveBounds.Proofs.Derivation.Batch
import DeriveBounds.Proofs.Run.Conservation
import DeriveBounds.Proofs.Body.Texts
import DeriveBounds.Proofs.Body.FieldChange
import DeriveBounds.Proofs.TypeExpr.Markers
import DeriveBounds.Proofs.Derivation.Attempt
import DeriveBounds.Proofs.Derivation.FieldChange
import DeriveBounds.Proofs.Derivation.Phantoms
import DeriveBounds.Proofs.Derivation.Skipping
import DeriveBounds.Proofs.Run.Selection
import DeriveBounds.Proofs.Run.TypeCount
import DeriveBounds.Proofs.Bounds.RequirementSet
import DeriveBounds.Proofs.Derivation.Reordering
import DeriveBounds.Proofs.Text.Lines
import DeriveBounds.Proofs.Body.Bindings
import DeriveBounds.Proofs.Body.Filled
import DeriveBounds.Proofs.Body.Outline
import DeriveBounds.Proofs.Body.Names
import DeriveBounds.Proofs.Source.Rendering
import DeriveBounds.Proofs.Source.Assembly
import DeriveBounds.Proofs.Token.LongestMatch
import DeriveBounds.Proofs.Token.Lossless
import DeriveBounds.Proofs.Classified.Member
import DeriveBounds.Proofs.Text.NameList
import DeriveBounds.Proofs.Run.Configuration
import DeriveBounds.Proofs.TypeExpr.Calls
import DeriveBounds.Proofs.TypeExpr.Progress
