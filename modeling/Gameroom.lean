import Gameroom.Action.Attempt
import Gameroom.Action.Comparison
import Gameroom.Action.Cooldowns
import Gameroom.Action.Parameters
import Gameroom.Action.Requirement
import Gameroom.CommandLine.Arguments
import Gameroom.CommandLine.Folder
import Gameroom.CommandLine.Help
import Gameroom.CommandLine.Script
import Gameroom.Config
import Gameroom.Definition.Basic
import Gameroom.Definition.Document
import Gameroom.Definition.Reader
import Gameroom.Definition.Review
import Gameroom.Effect.Apply
import Gameroom.Effect.Basic
import Gameroom.Effect.Outcome
import Gameroom.Effect.Reader
import Gameroom.Execution
import Gameroom.Expression.Basic
import Gameroom.Expression.Parser
import Gameroom.Expression.Substitution
import Gameroom.Expression.Token
import Gameroom.Expression.Value
import Gameroom.Fault
import Gameroom.Fit
import Gameroom.Json.Basic
import Gameroom.Json.Meaning
import Gameroom.Json.Order
import Gameroom.Json.Reader
import Gameroom.Json.Written
import Gameroom.Loop.Basic
import Gameroom.Loop.Listener
import Gameroom.Loop.Pulse
import Gameroom.Main
import Gameroom.Misfit
import Gameroom.Number.Basic
import Gameroom.Number.Decimal
import Gameroom.Number.Reading
import Gameroom.Number.Scaled
import Gameroom.Number.Written
import Gameroom.Proofs.Action.Attempt
import Gameroom.Proofs.Action.Parameters
import Gameroom.Proofs.Action.Range
import Gameroom.Proofs.Agree
import Gameroom.Proofs.Alike
import Gameroom.Proofs.Cooldown.Holders
import Gameroom.Proofs.Cooldown.Report
import Gameroom.Proofs.Cooldown.Spacing
import Gameroom.Proofs.Cooldown.Stamp
import Gameroom.Proofs.Cooldown.Window
import Gameroom.Proofs.Definition.Checks
import Gameroom.Proofs.Definition.Elements
import Gameroom.Proofs.Definition.Located
import Gameroom.Proofs.Definition.Overflow
import Gameroom.Proofs.Definition.Parallel
import Gameroom.Proofs.Definition.Parsed
import Gameroom.Proofs.Definition.Parts
import Gameroom.Proofs.Definition.Paths
import Gameroom.Proofs.Definition.Rendered
import Gameroom.Proofs.Definition.Sound
import Gameroom.Proofs.Definition.Spelling
import Gameroom.Proofs.Definition.Tidy
import Gameroom.Proofs.Definition.Worded
import Gameroom.Proofs.Effect.Applied
import Gameroom.Proofs.Effect.Change
import Gameroom.Proofs.Effect.Local
import Gameroom.Proofs.Effect.Overload
import Gameroom.Proofs.Expression.Compared
import Gameroom.Proofs.Expression.Comparing
import Gameroom.Proofs.Expression.Grammar
import Gameroom.Proofs.Expression.Lexing
import Gameroom.Proofs.Expression.Literals
import Gameroom.Proofs.Expression.Marks
import Gameroom.Proofs.Expression.Meaning
import Gameroom.Proofs.Expression.Numerals
import Gameroom.Proofs.Expression.OnePass
import Gameroom.Proofs.Expression.Overflow
import Gameroom.Proofs.Expression.Parsing
import Gameroom.Proofs.Expression.Place
import Gameroom.Proofs.Expression.Reached
import Gameroom.Proofs.Expression.Readings
import Gameroom.Proofs.Expression.Replacing
import Gameroom.Proofs.Expression.Resolving
import Gameroom.Proofs.Expression.Roundtrip
import Gameroom.Proofs.Expression.Scanning
import Gameroom.Proofs.Expression.Shape
import Gameroom.Proofs.Expression.Shown
import Gameroom.Proofs.Expression.Signs
import Gameroom.Proofs.Expression.Tree
import Gameroom.Proofs.Expression.WellFormed
import Gameroom.Proofs.Grid.Arithmetic
import Gameroom.Proofs.Grid.Canonical
import Gameroom.Proofs.Grid.Nearest
import Gameroom.Proofs.Grid.Place
import Gameroom.Proofs.Grid.Product
import Gameroom.Proofs.Grid.Quotient
import Gameroom.Proofs.Grid.Rounding
import Gameroom.Proofs.Grid.Taking
import Gameroom.Proofs.Json.Replaced
import Gameroom.Proofs.Loop.Elapsed
import Gameroom.Proofs.Loop.Phases
import Gameroom.Proofs.Loop.TickRules
import Gameroom.Proofs.Loop.Timestep
import Gameroom.Proofs.Loop.Unspent
import Gameroom.Proofs.Number.Distance
import Gameroom.Proofs.Number.Exact
import Gameroom.Proofs.Number.Order
import Gameroom.Proofs.Number.Shortest
import Gameroom.Proofs.Number.Whole
import Gameroom.Proofs.Random.Sample
import Gameroom.Proofs.Random.Unit
import Gameroom.Proofs.Reactor.Feed
import Gameroom.Proofs.Reactor.Phases
import Gameroom.Proofs.Reactor.Plant
import Gameroom.Proofs.Reactor.Safety
import Gameroom.Proofs.Room.Anew
import Gameroom.Proofs.Room.Beats
import Gameroom.Proofs.Room.Bounds
import Gameroom.Proofs.Room.Calm
import Gameroom.Proofs.Room.Conditions
import Gameroom.Proofs.Room.Delivery
import Gameroom.Proofs.Room.Drawn
import Gameroom.Proofs.Room.Draws
import Gameroom.Proofs.Room.Driven
import Gameroom.Proofs.Room.Edges
import Gameroom.Proofs.Room.Failing
import Gameroom.Proofs.Room.Firings
import Gameroom.Proofs.Room.Growth
import Gameroom.Proofs.Room.Halting
import Gameroom.Proofs.Room.History
import Gameroom.Proofs.Room.Move
import Gameroom.Proofs.Room.Occasions
import Gameroom.Proofs.Room.Offers
import Gameroom.Proofs.Room.Overload
import Gameroom.Proofs.Room.Pace
import Gameroom.Proofs.Room.Picture
import Gameroom.Proofs.Room.Players
import Gameroom.Proofs.Room.Process
import Gameroom.Proofs.Room.Record
import Gameroom.Proofs.Room.Refusal
import Gameroom.Proofs.Room.Reporting
import Gameroom.Proofs.Room.Requests
import Gameroom.Proofs.Room.Scores
import Gameroom.Proofs.Room.Started
import Gameroom.Proofs.Room.Step
import Gameroom.Proofs.Room.Submissions
import Gameroom.Proofs.Room.Twins
import Gameroom.Proofs.Room.Unspent
import Gameroom.Proofs.Shift.Answer
import Gameroom.Proofs.Shift.Attempt
import Gameroom.Proofs.Shift.Clock
import Gameroom.Proofs.Shift.Effect
import Gameroom.Proofs.Shift.Firings
import Gameroom.Proofs.Shift.Pulse
import Gameroom.Proofs.Shift.Request
import Gameroom.Proofs.Shift.Room
import Gameroom.Proofs.Shift.Run
import Gameroom.Proofs.Shift.State
import Gameroom.Proofs.Shift.Ticking
import Gameroom.Proofs.State.Asked
import Gameroom.Proofs.State.Change
import Gameroom.Proofs.State.Course
import Gameroom.Proofs.State.Step
import Gameroom.Proofs.State.Traversal
import Gameroom.Proofs.State.Typed
import Gameroom.Proofs.State.Variables
import Gameroom.Proofs.Table
import Gameroom.Proofs.Task
import Gameroom.Proofs.Text.Classes
import Gameroom.Proofs.Timestamp
import Gameroom.Random.Source
import Gameroom.Random.Twister
import Gameroom.Reactor
import Gameroom.Room.Basic
import Gameroom.Room.Life
import Gameroom.Room.Play
import Gameroom.Room.Request
import Gameroom.Room.Snapshot
import Gameroom.Room.Ticking
import Gameroom.Schema
import Gameroom.Service.Basic
import Gameroom.Service.Request
import Gameroom.State
import Gameroom.Status
import Gameroom.Task
import Gameroom.Text.Blank
import Gameroom.Text.DecimalDigit
import Gameroom.Text.Encoding
import Gameroom.Text.Printable
import Gameroom.Text.Quoted
import Gameroom.Text.Ranges
import Gameroom.Text.Uppercase
import Gameroom.Text.WordChar
import Gameroom.Timestamp
