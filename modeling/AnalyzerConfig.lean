import AnalyzerConfig.Arguments
import AnalyzerConfig.CommandLine
import AnalyzerConfig.CompilerOptions
import AnalyzerConfig.Config
import AnalyzerConfig.Failure
import AnalyzerConfig.Filesystem.Access
import AnalyzerConfig.Filesystem.Basic
import AnalyzerConfig.Filesystem.Resolve
import AnalyzerConfig.Glob.Expression
import AnalyzerConfig.Glob.Matching
import AnalyzerConfig.Glob.Parser
import AnalyzerConfig.Glob.Pattern
import AnalyzerConfig.Host
import AnalyzerConfig.Json.Basic
import AnalyzerConfig.Json.Include
import AnalyzerConfig.Json.Printer
import AnalyzerConfig.Json.Reader
import AnalyzerConfig.Layout.Basic
import AnalyzerConfig.Layout.Overrides
import AnalyzerConfig.Layout.Resolve
import AnalyzerConfig.Logged
import AnalyzerConfig.Main
import AnalyzerConfig.Octets
import AnalyzerConfig.Path.Basic
import AnalyzerConfig.Path.Quoted
import AnalyzerConfig.Path.Relative
import AnalyzerConfig.Project.Configs
import AnalyzerConfig.Project.Precheck
import AnalyzerConfig.Project.Scan
import AnalyzerConfig.Proofs.Arguments.Grammar
import AnalyzerConfig.Proofs.Arguments.Options
import AnalyzerConfig.Proofs.Arguments.Reading
import AnalyzerConfig.Proofs.Filesystem.Below
import AnalyzerConfig.Proofs.Filesystem.Leads
import AnalyzerConfig.Proofs.Filesystem.Limits
import AnalyzerConfig.Proofs.Filesystem.Looking
import AnalyzerConfig.Proofs.Filesystem.Moves
import AnalyzerConfig.Proofs.Filesystem.Naming
import AnalyzerConfig.Proofs.Filesystem.Passing
import AnalyzerConfig.Proofs.Filesystem.Stays
import AnalyzerConfig.Proofs.Filesystem.Writing
import AnalyzerConfig.Proofs.Glob.Beginnings
import AnalyzerConfig.Proofs.Glob.Endings
import AnalyzerConfig.Proofs.Json.Configs
import AnalyzerConfig.Proofs.Json.Grammar
import AnalyzerConfig.Proofs.Json.PlaceholderKeys
import AnalyzerConfig.Proofs.Json.Reading
import AnalyzerConfig.Proofs.Layout.Merging
import AnalyzerConfig.Proofs.Layout.Normal
import AnalyzerConfig.Proofs.Layout.Relative
import AnalyzerConfig.Proofs.Options.Tokens
import AnalyzerConfig.Proofs.Path.Below
import AnalyzerConfig.Proofs.Path.Joining
import AnalyzerConfig.Proofs.Path.Normal
import AnalyzerConfig.Proofs.Path.Ways
import AnalyzerConfig.Proofs.Project.Below
import AnalyzerConfig.Proofs.Project.Building
import AnalyzerConfig.Proofs.Project.Emitted
import AnalyzerConfig.Proofs.Project.Finding
import AnalyzerConfig.Proofs.Project.Inputs
import AnalyzerConfig.Proofs.Project.Names
import AnalyzerConfig.Proofs.Project.Scanning
import AnalyzerConfig.Proofs.Project.TestMatrix
import AnalyzerConfig.Proofs.Run.Contents
import AnalyzerConfig.Proofs.Run.Effects
import AnalyzerConfig.Proofs.Run.Exclusion
import AnalyzerConfig.Proofs.Run.FuzzInputs
import AnalyzerConfig.Proofs.Run.InStep
import AnalyzerConfig.Proofs.Run.LayoutFiles
import AnalyzerConfig.Proofs.Run.LayoutTables
import AnalyzerConfig.Proofs.Run.Outputs
import AnalyzerConfig.Proofs.Run.Requirements
import AnalyzerConfig.Proofs.Run.Rerun
import AnalyzerConfig.Proofs.Run.Roots
import AnalyzerConfig.Proofs.Run.Settings
import AnalyzerConfig.Proofs.Run.Sources
import AnalyzerConfig.Proofs.Text.Splitting
import AnalyzerConfig.Proofs.Toml.Keys
import AnalyzerConfig.Run
import AnalyzerConfig.Text.ControlSequence
import AnalyzerConfig.Text.Reader
import AnalyzerConfig.Text.Unprintable
import AnalyzerConfig.Toml.Basic
import AnalyzerConfig.Toml.Document
import AnalyzerConfig.Toml.Draft
import AnalyzerConfig.Toml.Lexical
import AnalyzerConfig.Toml.Scalar
import AnalyzerConfig.Toml.Statement
import AnalyzerConfig.Toml.Strings
