import MarkupTemplate.Artifact.Compiled
import MarkupTemplate.Artifact.Expression
import MarkupTemplate.Artifact.Program
import MarkupTemplate.Cache.Basic
import MarkupTemplate.Cache.Once
import MarkupTemplate.Cache.Setup
import MarkupTemplate.CommandLine.Arguments
import MarkupTemplate.CommandLine.Help
import MarkupTemplate.CommandLine.Inputs
import MarkupTemplate.CommandLine.Run
import MarkupTemplate.Compile.Basic
import MarkupTemplate.Compile.Block
import MarkupTemplate.Compile.Builder
import MarkupTemplate.Compile.Fault
import MarkupTemplate.Compile.Registry
import MarkupTemplate.Directive.Arguments
import MarkupTemplate.Directive.Basic
import MarkupTemplate.Directive.Entries
import MarkupTemplate.Directive.Kind
import MarkupTemplate.Evaluation.Evaluate
import MarkupTemplate.Evaluation.Fault
import MarkupTemplate.Evaluation.Scope
import MarkupTemplate.Expression.Basic
import MarkupTemplate.Expression.Parser
import MarkupTemplate.Expression.Path
import MarkupTemplate.Host.Arithmetic
import MarkupTemplate.Host.Fault
import MarkupTemplate.Host.Library
import MarkupTemplate.Host.Operator
import MarkupTemplate.Host.Parser
import MarkupTemplate.Host.Runtime
import MarkupTemplate.Host.Syntax
import MarkupTemplate.Import.Closure
import MarkupTemplate.Import.Uri
import MarkupTemplate.Json.Basic
import MarkupTemplate.Json.Reader
import MarkupTemplate.Json.Record
import MarkupTemplate.Json.Writer
import MarkupTemplate.Key.Basic
import MarkupTemplate.Key.Digest
import MarkupTemplate.Main
import MarkupTemplate.Markup.Document
import MarkupTemplate.Markup.Entity
import MarkupTemplate.Markup.Fault
import MarkupTemplate.Markup.Location
import MarkupTemplate.Markup.Namespace
import MarkupTemplate.Markup.Node
import MarkupTemplate.Markup.Tag
import MarkupTemplate.Markup.Token
import MarkupTemplate.Numeric.Binary64
import MarkupTemplate.Numeric.Decimal
import MarkupTemplate.Numeric.Reading
import MarkupTemplate.Program.Basic
import MarkupTemplate.Program.Expressions
import MarkupTemplate.Proofs.Artifact.Expressions
import MarkupTemplate.Proofs.Artifact.Programs
import MarkupTemplate.Proofs.Artifact.Stored
import MarkupTemplate.Proofs.Cache.Entries
import MarkupTemplate.Proofs.Cache.Restart
import MarkupTemplate.Proofs.Cache.Transparency
import MarkupTemplate.Proofs.Compile.Arguments
import MarkupTemplate.Proofs.Compile.Asking
import MarkupTemplate.Proofs.Compile.Balance
import MarkupTemplate.Proofs.Compile.Blocks
import MarkupTemplate.Proofs.Compile.Definitions
import MarkupTemplate.Proofs.Compile.DirectiveFaults
import MarkupTemplate.Proofs.Compile.Directives
import MarkupTemplate.Proofs.Compile.Elements
import MarkupTemplate.Proofs.Compile.EvaluationOrder
import MarkupTemplate.Proofs.Compile.ImportCycles
import MarkupTemplate.Proofs.Compile.Plain
import MarkupTemplate.Proofs.Compile.PlannedTags
import MarkupTemplate.Proofs.Compile.Registration
import MarkupTemplate.Proofs.Compile.Snapshot
import MarkupTemplate.Proofs.Compile.StaticTags
import MarkupTemplate.Proofs.Compile.Steps
import MarkupTemplate.Proofs.Compile.WellFormed
import MarkupTemplate.Proofs.Defaults.Blocks
import MarkupTemplate.Proofs.Defaults.Elements
import MarkupTemplate.Proofs.Defaults.Lightening
import MarkupTemplate.Proofs.Defaults.Lockstep
import MarkupTemplate.Proofs.Defaults.Programs
import MarkupTemplate.Proofs.Defaults.Recasts
import MarkupTemplate.Proofs.Defaults.Removals
import MarkupTemplate.Proofs.Defaults.Simplifications
import MarkupTemplate.Proofs.Defaults.StartTags
import MarkupTemplate.Proofs.Defaults.Templates
import MarkupTemplate.Proofs.Directive.Entries
import MarkupTemplate.Proofs.Directive.Names
import MarkupTemplate.Proofs.Evaluation.Bindings
import MarkupTemplate.Proofs.Evaluation.Frames
import MarkupTemplate.Proofs.Evaluation.Prepared
import MarkupTemplate.Proofs.Expression.Shorthand
import MarkupTemplate.Proofs.Expression.Templates
import MarkupTemplate.Proofs.Host.Coherence
import MarkupTemplate.Proofs.Host.Comparisons
import MarkupTemplate.Proofs.Host.Integers
import MarkupTemplate.Proofs.Host.Precedence
import MarkupTemplate.Proofs.Host.Reading
import MarkupTemplate.Proofs.Import.Closure
import MarkupTemplate.Proofs.Import.DepthFirst
import MarkupTemplate.Proofs.Import.Requests
import MarkupTemplate.Proofs.Import.Resolution
import MarkupTemplate.Proofs.Json.Numbers
import MarkupTemplate.Proofs.Json.RoundTrip
import MarkupTemplate.Proofs.Json.Strings
import MarkupTemplate.Proofs.Key.Framing
import MarkupTemplate.Proofs.Markup.Builder
import MarkupTemplate.Proofs.Markup.Escaping
import MarkupTemplate.Proofs.Markup.Grammar
import MarkupTemplate.Proofs.Markup.LexicalScopes
import MarkupTemplate.Proofs.Markup.NestedTags
import MarkupTemplate.Proofs.Markup.OpenTags
import MarkupTemplate.Proofs.Markup.Productions
import MarkupTemplate.Proofs.Markup.Scan
import MarkupTemplate.Proofs.Markup.StartTags
import MarkupTemplate.Proofs.Markup.TagGrammar
import MarkupTemplate.Proofs.Markup.TagTokens
import MarkupTemplate.Proofs.Markup.TokenKinds
import MarkupTemplate.Proofs.Markup.Tokens
import MarkupTemplate.Proofs.Numeric.Floats
import MarkupTemplate.Proofs.Render.Accepted
import MarkupTemplate.Proofs.Render.Bindings
import MarkupTemplate.Proofs.Render.Bounds
import MarkupTemplate.Proofs.Render.Closures
import MarkupTemplate.Proofs.Render.DeclaredGlobals
import MarkupTemplate.Proofs.Render.Executions
import MarkupTemplate.Proofs.Render.Frames
import MarkupTemplate.Proofs.Render.Loops
import MarkupTemplate.Proofs.Render.MacroNames
import MarkupTemplate.Proofs.Render.Meaning
import MarkupTemplate.Proofs.Render.Parameters
import MarkupTemplate.Proofs.Render.Realizes
import MarkupTemplate.Proofs.Render.Rewriting
import MarkupTemplate.Proofs.Render.Stacks
import MarkupTemplate.Proofs.Render.TagOutputs
import MarkupTemplate.Proofs.Render.Trees
import MarkupTemplate.Proofs.Render.Values
import MarkupTemplate.Proofs.Reordering.Templates
import MarkupTemplate.Proofs.Resource.Containment
import MarkupTemplate.Proofs.Results
import MarkupTemplate.Proofs.Storage.Files
import MarkupTemplate.Proofs.Storage.Keeping
import MarkupTemplate.Proofs.Storage.Recovery
import MarkupTemplate.Proofs.Text.Stops
import MarkupTemplate.Proofs.Text.Utf8
import MarkupTemplate.Proofs.Value.Handles
import MarkupTemplate.Render.Execute
import MarkupTemplate.Render.Fault
import MarkupTemplate.Render.State
import MarkupTemplate.Render.Tag
import MarkupTemplate.Render.Template
import MarkupTemplate.Resource.Directory
import MarkupTemplate.Resource.Fault
import MarkupTemplate.Resource.Provider
import MarkupTemplate.Storage.Basic
import MarkupTemplate.Storage.FileTree
import MarkupTemplate.Storage.Pattern
import MarkupTemplate.Template.Fault
import MarkupTemplate.Template.Mode
import MarkupTemplate.Text.Blank
import MarkupTemplate.Text.Casing
import MarkupTemplate.Text.Letter
import MarkupTemplate.Text.Printable
import MarkupTemplate.Text.Quoted
import MarkupTemplate.Text.Ranges
import MarkupTemplate.Text.Split
import MarkupTemplate.Text.Utf8
import MarkupTemplate.Text.Words
import MarkupTemplate.Value.Basic
import MarkupTemplate.Value.Coerce
import MarkupTemplate.Value.Fields
import MarkupTemplate.Value.Kind
import MarkupTemplate.Value.OfJson
