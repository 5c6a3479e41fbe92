import Componentry.Build.Attributes
import Componentry.Build.Basic
import Componentry.Build.Problem
import Componentry.Catalog
import Componentry.Category
import Componentry.CommandLine.Arguments
import Componentry.CommandLine.Run
import Componentry.Component.Action
import Componentry.Component.Control
import Componentry.Component.DataProvider
import Componentry.Component.Shortcode
import Componentry.Condition.Basic
import Componentry.Condition.Gate
import Componentry.Condition.Reader
import Componentry.Config
import Componentry.ControlThread
import Componentry.Document.Basic
import Componentry.Document.Declaration
import Componentry.Document.File
import Componentry.Event
import Componentry.Json.Basic
import Componentry.Json.Decode
import Componentry.Json.Printer
import Componentry.Json.Reader
import Componentry.Keyed
import Componentry.Main
import Componentry.Number.Binary64
import Componentry.Number.Numeral
import Componentry.Number.Shortest
import Componentry.Path
import Componentry.Proofs.Build.Attributes
import Componentry.Proofs.Build.Bindings
import Componentry.Proofs.Build.Elements
import Componentry.Proofs.Build.Ids
import Componentry.Proofs.Build.Nesting
import Componentry.Proofs.Build.OwnRoot
import Componentry.Proofs.Build.Parts
import Componentry.Proofs.Build.Snapshots
import Componentry.Proofs.Build.Sound
import Componentry.Proofs.Build.Visits
import Componentry.Proofs.Build.Walk
import Componentry.Proofs.Build.WellFormed
import Componentry.Proofs.Catalog
import Componentry.Proofs.Component.Control
import Componentry.Proofs.Condition.Cut
import Componentry.Proofs.Condition.Dangling
import Componentry.Proofs.Condition.Grouping
import Componentry.Proofs.Condition.Levels
import Componentry.Proofs.Condition.Operand
import Componentry.Proofs.Condition.Outside
import Componentry.Proofs.Condition.Parts
import Componentry.Proofs.Condition.Reading
import Componentry.Proofs.Condition.Scan
import Componentry.Proofs.Condition.Syntax
import Componentry.Proofs.Condition.Unsupported
import Componentry.Proofs.Json.Decode
import Componentry.Proofs.Json.Spelling
import Componentry.Proofs.Keyed
import Componentry.Proofs.Numeral
import Componentry.Proofs.Path
import Componentry.Proofs.Redaction.Assignments
import Componentry.Proofs.Redaction.Headers
import Componentry.Proofs.Redaction.Idempotence
import Componentry.Proofs.Redaction.Marked
import Componentry.Proofs.Redaction.Scan
import Componentry.Proofs.Redaction.Schemes
import Componentry.Proofs.Redaction.Secrecy
import Componentry.Proofs.Redaction.Words
import Componentry.Proofs.Registry.ClassName
import Componentry.Proofs.Registry.History
import Componentry.Proofs.Registry.Spelling
import Componentry.Proofs.Registry.TypePart
import Componentry.Proofs.RoundTrip
import Componentry.Proofs.Runs
import Componentry.Proofs.Session.Blocks
import Componentry.Proofs.Session.Cascade
import Componentry.Proofs.Session.Clock
import Componentry.Proofs.Session.Closed
import Componentry.Proofs.Session.Completion
import Componentry.Proofs.Session.Delays
import Componentry.Proofs.Session.Execution
import Componentry.Proofs.Session.Fate
import Componentry.Proofs.Session.Flight
import Componentry.Proofs.Session.Gates
import Componentry.Proofs.Session.Hidden
import Componentry.Proofs.Session.Ledger
import Componentry.Proofs.Session.Lifecycle
import Componentry.Proofs.Session.Loadable
import Componentry.Proofs.Session.Move
import Componentry.Proofs.Session.Multiplicity
import Componentry.Proofs.Session.Narrowing
import Componentry.Proofs.Session.Normal
import Componentry.Proofs.Session.Potential
import Componentry.Proofs.Session.Provider
import Componentry.Proofs.Session.Recurrence
import Componentry.Proofs.Session.Repeat
import Componentry.Proofs.Session.Retrigger
import Componentry.Proofs.Session.Run
import Componentry.Proofs.Session.Serving
import Componentry.Proofs.Session.Settle
import Componentry.Proofs.Session.Silence
import Componentry.Proofs.Session.Snapshot
import Componentry.Proofs.Session.States
import Componentry.Proofs.Session.Step
import Componentry.Proofs.Session.Stores
import Componentry.Proofs.Session.Teardown
import Componentry.Proofs.Session.Termination
import Componentry.Proofs.Session.Traffic
import Componentry.Proofs.Session.Turn
import Componentry.Proofs.Session.Without
import Componentry.Proofs.Template
import Componentry.Proofs.Text
import Componentry.Proofs.TickOrder
import Componentry.Proofs.TickSchedule
import Componentry.Proofs.TickTasks
import Componentry.Proofs.Ticker
import Componentry.Proofs.Tree.Routes
import Componentry.Proofs.Tree.Snapshot
import Componentry.Proofs.Tree.Structure
import Componentry.Proofs.Words
import Componentry.Redaction
import Componentry.Registry.Basic
import Componentry.Registry.ClassName
import Componentry.Request
import Componentry.Scope
import Componentry.Session.Basic
import Componentry.Session.Delivery
import Componentry.Session.Journal
import Componentry.Session.Load
import Componentry.Session.Schedule
import Componentry.Template
import Componentry.Text.Blank
import Componentry.Text.Case
import Componentry.Text.Cut
import Componentry.Text.WordChar
import Componentry.Text.Words
import Componentry.Ticker
import Componentry.Tree.Basic
import Componentry.Tree.Snapshot
import Componentry.Vocabulary
import Componentry.Yaml.Block
import Componentry.Yaml.Character
import Componentry.Yaml.Directive
import Componentry.Yaml.Folding
import Componentry.Yaml.Layout
import Componentry.Yaml.Node
import Componentry.Yaml.Plain
import Componentry.Yaml.Quoted
import Componentry.Yaml.Tag
import Componentry.Yaml.Token
import Componentry.Yaml.Value
