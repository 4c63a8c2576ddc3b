import ApiStack.CommandLine.Arguments
import ApiStack.CommandLine.Report
import ApiStack.CommandLine.Run
import ApiStack.Compile.Api
import ApiStack.Compile.ApiKey
import ApiStack.Compile.DataSource
import ApiStack.Compile.Domain
import ApiStack.Compile.Endpoint
import ApiStack.Compile.Functions
import ApiStack.Compile.Handler
import ApiStack.Compile.PipelineFunction
import ApiStack.Compile.Resolver
import ApiStack.Compile.Schema
import ApiStack.Compile.Waf
import ApiStack.Compile.WafRules
import ApiStack.Config.Api
import ApiStack.Config.Auth
import ApiStack.Config.Authored
import ApiStack.Config.DataSource
import ApiStack.Config.DomainName
import ApiStack.Config.Function
import ApiStack.Config.Issues
import ApiStack.Config.Lifting
import ApiStack.Config.Waf
import ApiStack.Decimal.Binary64
import ApiStack.Decimal.Literal
import ApiStack.Decimal.Shortest
import ApiStack.Decode.Datum
import ApiStack.Decode.Fault
import ApiStack.Decode.Mismatch
import ApiStack.Decode.Record
import ApiStack.Decode.Source
import ApiStack.Decode.Variant
import ApiStack.Failure
import ApiStack.Files.Basic
import ApiStack.Files.Disk
import ApiStack.Files.Glob
import ApiStack.Files.Memory
import ApiStack.Files.Path
import ApiStack.FunctionName
import ApiStack.Json.Basic
import ApiStack.Json.Excerpt
import ApiStack.Json.Printer
import ApiStack.Json.Prune
import ApiStack.Json.Reader
import ApiStack.LogicalId
import ApiStack.Main
import ApiStack.OrderedMap
import ApiStack.Resource.Graph
import ApiStack.Resource.Intrinsic
import ApiStack.Resource.Policy
import ApiStack.Sdl.Document
import ApiStack.Sdl.Expectation
import ApiStack.Sdl.Fault
import ApiStack.Sdl.Grammar
import ApiStack.Sdl.Merge
import ApiStack.Sdl.Parser
import ApiStack.Sdl.Printer
import ApiStack.Sdl.ServiceDeclarations
import ApiStack.Sdl.Validation
import ApiStack.Settings
import ApiStack.Template
import ApiStack.Text.Blank
import ApiStack.Text.ByteSize
import ApiStack.Text.DecimalDigit
import ApiStack.Text.Hidden
import ApiStack.Text.Quoted
import ApiStack.Text.Ranges
import ApiStack.Text.Uppercase
import ApiStack.Text.WordChar
import ApiStack.Time.Duration
import ApiStack.Time.Expiry
import ApiStack.Time.Instant
import ApiStack.Time.Rfc3339
import ApiStack.Yaml.Grammar
import ApiStack.Yaml.Lexer
import ApiStack.Yaml.Node
import ApiStack.Yaml.Printer
import ApiStack.Yaml.Scalar
import ApiStack.Yaml.ScalarText
import ApiStack.Yaml.Tag
import ApiStack.Yaml.Token
import ApiStack.Proofs.Json.Same
import ApiStack.Proofs.OrderedMap
import ApiStack.Proofs.Resource.Graph
import ApiStack.Proofs.Compile.Assembly
import ApiStack.Proofs.Compile.CheckedText
import ApiStack.Proofs.Compile.Schema
import ApiStack.Proofs.Json.EveryEntry
import ApiStack.Proofs.Config.Supply
import ApiStack.Proofs.Compile.References
import ApiStack.Proofs.Compile.References.Endpoint
import ApiStack.Proofs.Compile.References.Waf
import ApiStack.Proofs.Compile.References.DataSource
import ApiStack.Proofs.Compile.References.Resolver
import ApiStack.Proofs.Compile.Parts
import ApiStack.Proofs.Compile.References.Stack
import ApiStack.Proofs.Compile.Reordering
import ApiStack.Proofs.Config.Lifted
import ApiStack.Proofs.Config.Lifting
import ApiStack.Proofs.Compile.WafRules
import ApiStack.Proofs.Compile.RuleScope
import ApiStack.Proofs.Compile.FunctionIds
import ApiStack.Proofs.Compile.Registers
import ApiStack.Proofs.Compile.Sites
import ApiStack.Proofs.Compile.Registry
import ApiStack.Proofs.Config.Issues
import ApiStack.Proofs.Config.Limits
import ApiStack.Proofs.Compile.Limits
import ApiStack.Proofs.Config.Resolvers
import ApiStack.Proofs.Sdl.Union
import ApiStack.Proofs.Sdl.Merge
import ApiStack.Proofs.Sdl.Validation
import ApiStack.Proofs.Sdl.MergedValidity
import ApiStack.Proofs.Sdl.DefinitionOrder
import ApiStack.Proofs.Decimal.Layout
import ApiStack.Proofs.Decimal.Rounding
import ApiStack.Proofs.Decimal.Shortest
import ApiStack.Proofs.Decimal.Readable
import ApiStack.Proofs.Json.Numerals
import ApiStack.Proofs.Json.Range
import ApiStack.Proofs.Sdl.Reading
import ApiStack.Proofs.Sdl.Tokens
import ApiStack.Proofs.Sdl.Strings
import ApiStack.Proofs.Sdl.Numbers
import ApiStack.Proofs.Sdl.Values
import ApiStack.Proofs.Sdl.Fields
import ApiStack.Proofs.Sdl.Types
import ApiStack.Proofs.Sdl.Definitions
import ApiStack.Proofs.Sdl.Parsed
import ApiStack.Proofs.Sdl.RoundTrip
import ApiStack.Proofs.Sdl.WellFormed
import ApiStack.Proofs.Compile.Pipelines
import ApiStack.Proofs.Sdl.TakenOver
import ApiStack.Proofs.Sdl.Lines
import ApiStack.Proofs.Sdl.ReadsAbove
import ApiStack.Proofs.Sdl.DefinitionsAbove
import ApiStack.Proofs.Sdl.Concatenation
import ApiStack.Proofs.Sdl.MergeFaults
import ApiStack.Proofs.Compile.SeveralFiles
import ApiStack.Proofs.Time.Duration
import ApiStack.Proofs.Compile.Failures
import ApiStack.Proofs.Compile.Origins
import ApiStack.Proofs.Compile.Collisions
import ApiStack.Proofs.Time.Hour
import ApiStack.Proofs.Time.Expiry
import ApiStack.Proofs.Compile.Redeployment
import ApiStack.Proofs.Json.Excerpt
import ApiStack.Proofs.Settings
import ApiStack.Proofs.Files.Disk
import ApiStack.Proofs.CommandLine.Arguments
import ApiStack.Proofs.CommandLine.Run
import ApiStack.Proofs.CommandLine.History
import ApiStack.Proofs.Template
import ApiStack.Proofs.Compile.Durations
import ApiStack.Proofs.Compile.Priorities
import ApiStack.Proofs.Decode.Record
import ApiStack.Proofs.Config.RuleBlocks
import ApiStack.Proofs.Compile.DataSourceRoles
import ApiStack.Proofs.Compile.DataSourceCalls
import ApiStack.Proofs.Compile.DataSourceRefusals
import ApiStack.Proofs.Config.LiftingFaults
import ApiStack.Proofs.Config.LiftedNames
import ApiStack.Proofs.Sdl.BlockLines
import ApiStack.Proofs.Sdl.Descriptions
import ApiStack.Proofs.Resource.WriteOnce
import ApiStack.Proofs.Files.Patterns
import ApiStack.Proofs.Compile.SchemaFiles
import ApiStack.Proofs.Config.DomainName
import ApiStack.Proofs.Compile.Zones
import ApiStack.Proofs.Config.Reports
import ApiStack.Proofs.Config.Violations
import ApiStack.Proofs.Json.Prune
import ApiStack.Proofs.Compile.Properties
