import Metamodel.Annotation.Basic
import Metamodel.Annotation.Catalog
import Metamodel.Annotation.Decorator
import Metamodel.Annotation.Mark
import Metamodel.Annotation.TagComment
import Metamodel.Artifact.Basic
import Metamodel.Artifact.Derivation
import Metamodel.Artifact.Import
import Metamodel.Artifact.Json
import Metamodel.Artifact.Rendering
import Metamodel.Calendar
import Metamodel.CommandLine.Help
import Metamodel.CommandLine.Option
import Metamodel.CommandLine.Request
import Metamodel.CommandLine.Session
import Metamodel.CommandLine.Suggestion
import Metamodel.CommandLine.Truth
import Metamodel.Config
import Metamodel.Config.File
import Metamodel.Config.Schema
import Metamodel.Decimal.Binary64
import Metamodel.Decimal.Shortest
import Metamodel.Decimal.Text
import Metamodel.Declaration.Basic
import Metamodel.Declaration.File
import Metamodel.Declaration.Json
import Metamodel.Declaration.Schema
import Metamodel.Declaration.Source
import Metamodel.Diagnostic
import Metamodel.Diagnostic.Json
import Metamodel.Entity.Ancestry
import Metamodel.Entity.Basic
import Metamodel.Entity.Extraction
import Metamodel.Entity.Json
import Metamodel.Entity.Naming
import Metamodel.EntityType.Attribute
import Metamodel.EntityType.Basic
import Metamodel.EntityType.Model
import Metamodel.FileTree
import Metamodel.Glob.Basic
import Metamodel.Glob.Braces
import Metamodel.Graph.Basic
import Metamodel.Graph.Json
import Metamodel.Graph.Validation
import Metamodel.Json.Basic
import Metamodel.Json.Field
import Metamodel.Json.Lexer
import Metamodel.Json.Parser
import Metamodel.Json.Plain
import Metamodel.Json.Printer
import Metamodel.Location
import Metamodel.Location.Json
import Metamodel.Log
import Metamodel.Main
import Metamodel.Package
import Metamodel.Path
import Metamodel.Proofs.Annotation.Alias
import Metamodel.Proofs.Annotation.TagComment
import Metamodel.Proofs.Artifact.Access
import Metamodel.Proofs.Artifact.Agreement
import Metamodel.Proofs.Artifact.Binding
import Metamodel.Proofs.Artifact.Derivation
import Metamodel.Proofs.Artifact.Equality
import Metamodel.Proofs.Artifact.File
import Metamodel.Proofs.Artifact.FileName
import Metamodel.Proofs.Artifact.Identifiers
import Metamodel.Proofs.Artifact.Import
import Metamodel.Proofs.Artifact.Linking
import Metamodel.Proofs.Artifact.Loading
import Metamodel.Proofs.Artifact.MemberNames
import Metamodel.Proofs.Artifact.Members
import Metamodel.Proofs.Artifact.Piece
import Metamodel.Proofs.Artifact.Registry
import Metamodel.Proofs.Artifact.SourceImport
import Metamodel.Proofs.Artifact.Specifier
import Metamodel.Proofs.Artifact.Supply
import Metamodel.Proofs.Decimal.Shortest
import Metamodel.Proofs.Decimal.Text
import Metamodel.Proofs.Decimal.Whole
import Metamodel.Proofs.Declaration.Form
import Metamodel.Proofs.Declaration.Reading
import Metamodel.Proofs.Entity.Ancestry
import Metamodel.Proofs.Entity.Constant
import Metamodel.Proofs.Entity.Getter
import Metamodel.Proofs.Entity.Identifier
import Metamodel.Proofs.Entity.Inheritance
import Metamodel.Proofs.Entity.Naming
import Metamodel.Proofs.Entity.Walk
import Metamodel.Proofs.EntityType.History
import Metamodel.Proofs.Graph.Assembly
import Metamodel.Proofs.Graph.Findings
import Metamodel.Proofs.Graph.Order
import Metamodel.Proofs.Graph.Restriction
import Metamodel.Proofs.Graph.Transience
import Metamodel.Proofs.Json.Canonical
import Metamodel.Proofs.Json.Printing
import Metamodel.Proofs.Json.ReadBack
import Metamodel.Proofs.Keyed
import Metamodel.Proofs.Package
import Metamodel.Proofs.Path.Course
import Metamodel.Proofs.Path.Resolution
import Metamodel.Proofs.Path.Segments
import Metamodel.Proofs.Report.Account
import Metamodel.Proofs.Report.Counts
import Metamodel.Proofs.Report.Markdown
import Metamodel.Proofs.Report.Order
import Metamodel.Proofs.Report.Table
import Metamodel.Proofs.Report.Text
import Metamodel.Proofs.Run.Access
import Metamodel.Proofs.Run.Accounting
import Metamodel.Proofs.Run.Addition
import Metamodel.Proofs.Run.Agreement
import Metamodel.Proofs.Run.Binding
import Metamodel.Proofs.Run.Build
import Metamodel.Proofs.Run.Containment
import Metamodel.Proofs.Run.Descent
import Metamodel.Proofs.Run.DialectIndependence
import Metamodel.Proofs.Run.Files
import Metamodel.Proofs.Run.Findings
import Metamodel.Proofs.Run.Identifiers
import Metamodel.Proofs.Run.Inheritance
import Metamodel.Proofs.Run.Isolation
import Metamodel.Proofs.Run.Keys
import Metamodel.Proofs.Run.Listeners
import Metamodel.Proofs.Run.Loading
import Metamodel.Proofs.Run.Members
import Metamodel.Proofs.Run.Messages
import Metamodel.Proofs.Run.OrderIndependence
import Metamodel.Proofs.Run.Origin
import Metamodel.Proofs.Run.Outcome
import Metamodel.Proofs.Run.Remarks
import Metamodel.Proofs.Run.Renaming
import Metamodel.Proofs.Run.ReportOrder
import Metamodel.Proofs.Run.Shadowing
import Metamodel.Proofs.Run.SourceTree
import Metamodel.Proofs.Run.Stages
import Metamodel.Proofs.Run.Supertypes
import Metamodel.Proofs.Run.ToMany
import Metamodel.Proofs.Run.Transience
import Metamodel.Proofs.Schema.Acceptance
import Metamodel.Proofs.Source.Members
import Metamodel.Proofs.SourcePath
import Metamodel.Proofs.Text.Blank
import Metamodel.Proofs.Text.CaseMap
import Metamodel.Proofs.Text.Collation
import Metamodel.Proofs.Text.Quoted
import Metamodel.Proofs.Text.Split
import Metamodel.Proofs.Text.Units
import Metamodel.Proofs.Value.Equality
import Metamodel.Proofs.Value.Hash
import Metamodel.Report.Basic
import Metamodel.Report.Format
import Metamodel.Report.Markdown
import Metamodel.ReservedWords
import Metamodel.Run.Build
import Metamodel.Run.Context
import Metamodel.Run.Process
import Metamodel.Run.Project
import Metamodel.Run.Registry
import Metamodel.Schema.Basic
import Metamodel.Source.DocComment
import Metamodel.Source.Expression.Basic
import Metamodel.Source.Expression.Parser
import Metamodel.Source.Lexer
import Metamodel.Source.Library
import Metamodel.Source.Literal
import Metamodel.Source.Program.Basic
import Metamodel.Source.Program.Entity
import Metamodel.Source.Program.Module
import Metamodel.Source.Program.Resolution
import Metamodel.Source.Reading.Annotation
import Metamodel.Source.Reading.Member
import Metamodel.Source.Reading.Project
import Metamodel.Source.ResolvedType.Basic
import Metamodel.Source.ResolvedType.Evaluation
import Metamodel.Source.ResolvedType.TypeRef
import Metamodel.Source.Settings.File
import Metamodel.Source.Settings.Option
import Metamodel.Source.Settings.Text
import Metamodel.Source.Statement.Basic
import Metamodel.Source.Statement.MemberParser
import Metamodel.Source.Statement.Parser
import Metamodel.Source.Token
import Metamodel.Source.TypeExpr.Basic
import Metamodel.Source.TypeExpr.Parser
import Metamodel.SourceFiles
import Metamodel.Text.Blank
import Metamodel.Text.CaseMap
import Metamodel.Text.CaseMap.Table
import Metamodel.Text.Collation
import Metamodel.Text.Quoted
import Metamodel.Text.Split
import Metamodel.Text.Units
import Metamodel.TypeRef
import Metamodel.TypeRef.Json
import Metamodel.Value.Basic
import Metamodel.Value.Description
import Metamodel.Value.Hash
