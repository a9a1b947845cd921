import PluginSandbox.Arithmetic
import PluginSandbox.Artifact
import PluginSandbox.Audit.Event
import PluginSandbox.Audit.Record
import PluginSandbox.Audit.Timestamp
import PluginSandbox.Bytecode.Basic
import PluginSandbox.Bytecode.Encoding
import PluginSandbox.Bytecode.Verify
import PluginSandbox.CommandLine.Arguments
import PluginSandbox.CommandLine.FileTree
import PluginSandbox.CommandLine.Files
import PluginSandbox.CommandLine.Perform
import PluginSandbox.Compiler.Builtin
import PluginSandbox.Compiler.Generator
import PluginSandbox.Compiler.Listing
import PluginSandbox.Compiler.Lookup
import PluginSandbox.Compiler.Meaning
import PluginSandbox.Compiler.Problem
import PluginSandbox.Compiler.Query
import PluginSandbox.Configuration.Basic
import PluginSandbox.Configuration.Reading
import PluginSandbox.Configuration.Validation
import PluginSandbox.Diagnostic
import PluginSandbox.Digest.Sha256
import PluginSandbox.Failure
import PluginSandbox.FileError
import PluginSandbox.Json.Basic
import PluginSandbox.Json.Complaint
import PluginSandbox.Json.Decimal
import PluginSandbox.Json.Decoder
import PluginSandbox.Json.Reader
import PluginSandbox.Json.Review.Basic
import PluginSandbox.Json.Review.Hold
import PluginSandbox.Json.Review.Ignore
import PluginSandbox.Json.Review.Number
import PluginSandbox.Json.Review.Structure
import PluginSandbox.Json.Review.Text
import PluginSandbox.Json.Shape
import PluginSandbox.Language.Lexer
import PluginSandbox.Language.Parser.Basic
import PluginSandbox.Language.Parser.Expression
import PluginSandbox.Language.Parser.Statement
import PluginSandbox.Language.Parser.Unit
import PluginSandbox.Language.Token
import PluginSandbox.Language.Tree
import PluginSandbox.Loader
import PluginSandbox.Location
import PluginSandbox.Machine.Basic
import PluginSandbox.Machine.Counted
import PluginSandbox.Machine.Operation
import PluginSandbox.Machine.Plugin
import PluginSandbox.Machine.Timed
import PluginSandbox.Main
import PluginSandbox.Order
import PluginSandbox.Platform.Catalogue
import PluginSandbox.Platform.Native
import PluginSandbox.Policy
import PluginSandbox.Program.Basic
import PluginSandbox.Program.Evaluation
import PluginSandbox.Proofs.Arithmetic
import PluginSandbox.Proofs.Artifact
import PluginSandbox.Proofs.Artifact.History
import PluginSandbox.Proofs.Audit.Event
import PluginSandbox.Proofs.Audit.Logging
import PluginSandbox.Proofs.Audit.Record
import PluginSandbox.Proofs.Bytecode.Encoding
import PluginSandbox.Proofs.Bytecode.RoundTrip
import PluginSandbox.Proofs.Bytecode.Verify
import PluginSandbox.Proofs.Catalogue
import PluginSandbox.Proofs.Compiler.Apart
import PluginSandbox.Proofs.Compiler.Beside
import PluginSandbox.Proofs.Compiler.Code
import PluginSandbox.Proofs.Compiler.Compiled
import PluginSandbox.Proofs.Compiler.Decided
import PluginSandbox.Proofs.Compiler.Decisions
import PluginSandbox.Proofs.Compiler.Found
import PluginSandbox.Proofs.Compiler.Generated
import PluginSandbox.Proofs.Compiler.Heights
import PluginSandbox.Proofs.Compiler.Listed
import PluginSandbox.Proofs.Compiler.Memoised
import PluginSandbox.Proofs.Compiler.Passes
import PluginSandbox.Proofs.Compiler.Placement
import PluginSandbox.Proofs.Compiler.Pointing
import PluginSandbox.Proofs.Compiler.Scopes
import PluginSandbox.Proofs.Compiler.Serve
import PluginSandbox.Proofs.Compiler.Slots
import PluginSandbox.Proofs.Compiler.Sought
import PluginSandbox.Proofs.Compiler.Task
import PluginSandbox.Proofs.Compiler.Unused
import PluginSandbox.Proofs.Json.Document
import PluginSandbox.Proofs.Json.Record
import PluginSandbox.Proofs.Json.Text
import PluginSandbox.Proofs.Language.Accepted
import PluginSandbox.Proofs.Language.Derived
import PluginSandbox.Proofs.Language.Grammar
import PluginSandbox.Proofs.Language.Lexed
import PluginSandbox.Proofs.Language.Nesting
import PluginSandbox.Proofs.Language.Parsed
import PluginSandbox.Proofs.Language.Partition
import PluginSandbox.Proofs.Language.Pieces
import PluginSandbox.Proofs.Language.Places
import PluginSandbox.Proofs.Language.Positions
import PluginSandbox.Proofs.Language.Printing
import PluginSandbox.Proofs.Language.Reading
import PluginSandbox.Proofs.Language.Recovery
import PluginSandbox.Proofs.Language.Returning
import PluginSandbox.Proofs.Language.Routine
import PluginSandbox.Proofs.Language.Succeeding
import PluginSandbox.Proofs.Language.Taking
import PluginSandbox.Proofs.Language.Tracked
import PluginSandbox.Proofs.Language.Tree
import PluginSandbox.Proofs.Language.Words
import PluginSandbox.Proofs.Loader.Alone
import PluginSandbox.Proofs.Loader.Attempts
import PluginSandbox.Proofs.Loader.History
import PluginSandbox.Proofs.Loader.Links
import PluginSandbox.Proofs.Loader.Memory
import PluginSandbox.Proofs.Machine.Activation
import PluginSandbox.Proofs.Machine.Calls
import PluginSandbox.Proofs.Machine.Confinement
import PluginSandbox.Proofs.Machine.Depth
import PluginSandbox.Proofs.Machine.Effects
import PluginSandbox.Proofs.Machine.Ending
import PluginSandbox.Proofs.Machine.Exactness
import PluginSandbox.Proofs.Machine.Follow
import PluginSandbox.Proofs.Machine.Heights
import PluginSandbox.Proofs.Machine.Likeness
import PluginSandbox.Proofs.Machine.Output
import PluginSandbox.Proofs.Machine.Place
import PluginSandbox.Proofs.Machine.Repetition
import PluginSandbox.Proofs.Machine.Source
import PluginSandbox.Proofs.Machine.Step
import PluginSandbox.Proofs.Machine.Stops
import PluginSandbox.Proofs.Machine.Verified
import PluginSandbox.Proofs.Native
import PluginSandbox.Proofs.Order
import PluginSandbox.Proofs.Program.Correctness
import PluginSandbox.Proofs.Program.Rules
import PluginSandbox.Proofs.Program.Simulation
import PluginSandbox.Proofs.Program.Variables
import PluginSandbox.Proofs.Resolver.DefaultDeny
import PluginSandbox.Proofs.Resolver.Events
import PluginSandbox.Proofs.Resolver.Operations
import PluginSandbox.Proofs.Resolver.Requests
import PluginSandbox.Proofs.Session.Accepted
import PluginSandbox.Proofs.Session.Agreement
import PluginSandbox.Proofs.Session.Compile
import PluginSandbox.Proofs.Session.Correctness
import PluginSandbox.Proofs.Session.Heights
import PluginSandbox.Proofs.Session.Interference
import PluginSandbox.Proofs.Session.Lifecycle
import PluginSandbox.Proofs.Session.Modules
import PluginSandbox.Proofs.Session.Registration
import PluginSandbox.Proofs.Session.Trail
import PluginSandbox.Proofs.Toolchain
import PluginSandbox.Proofs.Visibility
import PluginSandbox.Resolution
import PluginSandbox.Resolver
import PluginSandbox.Sandbox
import PluginSandbox.Session.Basic
import PluginSandbox.Session.Report
import PluginSandbox.Session.State
import PluginSandbox.Text.Blank
import PluginSandbox.Text.Dotted
import PluginSandbox.Text.Quoted
import PluginSandbox.Text.Unprintable
import PluginSandbox.Toolchain
import PluginSandbox.Unit
import PluginSandbox.Value
