import FlowScript.Channel.Client
import FlowScript.Channel.Filter
import FlowScript.Channel.Mailbox
import FlowScript.Channel.Session
import FlowScript.Channel.Topic
import FlowScript.Channel.Transport
import FlowScript.CommandLine.Arguments
import FlowScript.CommandLine.Fault
import FlowScript.CommandLine.Help
import FlowScript.CommandLine.Run
import FlowScript.Component.Builtin
import FlowScript.Component.Kind
import FlowScript.Component.Property
import FlowScript.Component.Response
import FlowScript.Component.Stimulus
import FlowScript.Component.Trigger
import FlowScript.Decimal.Binary64
import FlowScript.Decimal.Notation
import FlowScript.Decimal.Reading
import FlowScript.Decimal.Shortest
import FlowScript.Dict
import FlowScript.Experiment.Basic
import FlowScript.Experiment.Document
import FlowScript.Experiment.Resolved
import FlowScript.Experiment.Shape
import FlowScript.Failure
import FlowScript.Files.Change
import FlowScript.Files.Path
import FlowScript.Files.Tree
import FlowScript.Hash.Xxh3
import FlowScript.Identifier
import FlowScript.Json.Basic
import FlowScript.Json.Number
import FlowScript.Json.Reader
import FlowScript.Json.Style
import FlowScript.Main
import FlowScript.Program.Assembly
import FlowScript.Program.Compiler
import FlowScript.Program.Finding
import FlowScript.Program.Fingerprint
import FlowScript.Settings.Basic
import FlowScript.Settings.Environment
import FlowScript.Settings.Value
import FlowScript.Target.Basic
import FlowScript.Target.Literal
import FlowScript.Target.Reserved
import FlowScript.Template.Basic
import FlowScript.Template.Collection
import FlowScript.Template.Embedded
import FlowScript.Template.Fault
import FlowScript.Template.Field
import FlowScript.Text.Blank
import FlowScript.Text.Split
import FlowScript.Toml.Reader
import FlowScript.Toml.Scalar
import FlowScript.Toml.Table
import FlowScript.Proofs.Findings
import FlowScript.Proofs.Code
import FlowScript.Proofs.Expression
import FlowScript.Proofs.Filling
import FlowScript.Proofs.Values
import FlowScript.Proofs.Reading
import FlowScript.Proofs.Tokens
import FlowScript.Proofs.Embedded
import FlowScript.Proofs.Source
import FlowScript.Proofs.ProgramLines
import FlowScript.Proofs.BoundNames
import FlowScript.Proofs.Declarations
import FlowScript.Proofs.Loopback
import FlowScript.Proofs.Effects
import FlowScript.Proofs.Runs
import FlowScript.Proofs.Stopping
import FlowScript.Proofs.Accounting
import FlowScript.Proofs.Delivery
import FlowScript.Proofs.Calls
import FlowScript.Proofs.ValueCalls
import FlowScript.Proofs.CalledNames
import FlowScript.Proofs.Isolation
import FlowScript.Proofs.Stored
import FlowScript.Proofs.Failures
import FlowScript.Proofs.Targets
import FlowScript.Proofs.Places
import FlowScript.Proofs.Problems
import FlowScript.Proofs.Wrapping
import FlowScript.Proofs.Effective
import FlowScript.Proofs.Rounding
import FlowScript.Proofs.ShortestDigits
import FlowScript.Proofs.ReadBack
import FlowScript.Proofs.Numerals
import FlowScript.Proofs.NumberTokens
import FlowScript.Proofs.Denotation
import FlowScript.Proofs.Representable
import FlowScript.Proofs.Levels
import FlowScript.Proofs.DeviceTopics
import FlowScript.Proofs.Lifecycle
import FlowScript.Proofs.Magnitudes
import FlowScript.Proofs.Decimals
import FlowScript.Proofs.Contracts
import FlowScript.Proofs.WrittenTemplates
import FlowScript.Proofs.Directories
import FlowScript.Proofs.TemplateSets
import FlowScript.Proofs.KeyNames
import FlowScript.Proofs.Resolution
import FlowScript.Proofs.WrittenDocuments
import FlowScript.Proofs.FailedStarts
import FlowScript.Proofs.Checking
import FlowScript.Proofs.Arguments
import FlowScript.Proofs.Writing
import FlowScript.Proofs.Compilation
import FlowScript.Proofs.IntegerTexts
