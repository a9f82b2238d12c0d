import PhaseSampling.Checkpoint
import PhaseSampling.Checkpoint.Manifest
import PhaseSampling.Checkpoint.Name
import PhaseSampling.Checkpoint.Table
import PhaseSampling.Chunks
import PhaseSampling.Command.Desk
import PhaseSampling.Command.Options
import PhaseSampling.Command.Run
import PhaseSampling.Decimal.Binary64
import PhaseSampling.Decimal.Shortest
import PhaseSampling.Decimal.Style
import PhaseSampling.Engine.Basic
import PhaseSampling.Engine.Controller
import PhaseSampling.Engine.Counter
import PhaseSampling.Engine.Response
import PhaseSampling.Engine.RunFor
import PhaseSampling.Engine.Scripted
import PhaseSampling.Engine.Simulated
import PhaseSampling.Engine.StopCause
import PhaseSampling.Fault
import PhaseSampling.FileTree
import PhaseSampling.FileTree.Change
import PhaseSampling.FileTree.Path
import PhaseSampling.Flow
import PhaseSampling.FrequencyVector
import PhaseSampling.Histogram
import PhaseSampling.Interval
import PhaseSampling.Interval.Json
import PhaseSampling.Json.Reader
import PhaseSampling.Json.Scalar
import PhaseSampling.Json.Value
import PhaseSampling.Main
import PhaseSampling.Output
import PhaseSampling.Proofs.Agreement
import PhaseSampling.Proofs.Checkpoint.Anchors
import PhaseSampling.Proofs.Checkpoint.Labels
import PhaseSampling.Proofs.Checkpoint.Manifest
import PhaseSampling.Proofs.Checkpoint.Names
import PhaseSampling.Proofs.Checkpoint.Reading
import PhaseSampling.Proofs.Checkpoint.Shelf
import PhaseSampling.Proofs.Chunks.Numbering
import PhaseSampling.Proofs.Chunks.Rows
import PhaseSampling.Proofs.Chunks.Simulated
import PhaseSampling.Proofs.Chunks.Tiling
import PhaseSampling.Proofs.Engine.Alarms
import PhaseSampling.Proofs.Engine.Controller
import PhaseSampling.Proofs.Engine.Endings
import PhaseSampling.Proofs.Engine.Framing
import PhaseSampling.Proofs.Engine.Portions
import PhaseSampling.Proofs.Engine.Requests
import PhaseSampling.Proofs.Engine.Scripted
import PhaseSampling.Proofs.Engine.Simulated
import PhaseSampling.Proofs.Engine.Stops
import PhaseSampling.Proofs.FileTree.Directories
import PhaseSampling.Proofs.FileTree.Entry
import PhaseSampling.Proofs.FileTree.Links
import PhaseSampling.Proofs.FileTree.Straight
import PhaseSampling.Proofs.FileTree.Walk
import PhaseSampling.Proofs.Flow.Bounded
import PhaseSampling.Proofs.Flow.Course
import PhaseSampling.Proofs.Flow.Endings
import PhaseSampling.Proofs.Flow.Pairs
import PhaseSampling.Proofs.Flow.Yields
import PhaseSampling.Proofs.Json.Layout
import PhaseSampling.Proofs.Json.Reading
import PhaseSampling.Proofs.Json.Rests
import PhaseSampling.Proofs.Json.Values
import PhaseSampling.Proofs.Output
import PhaseSampling.Proofs.Replay.Ends
import PhaseSampling.Proofs.Replay.Headway
import PhaseSampling.Proofs.Replay.Links
import PhaseSampling.Proofs.Replay.Outcome
import PhaseSampling.Proofs.Replay.Requests
import PhaseSampling.Proofs.Replay.Schedule
import PhaseSampling.Proofs.Replay.Simulated
import PhaseSampling.Proofs.Replay.Survival
import PhaseSampling.Proofs.Replay.Targets
import PhaseSampling.Proofs.Replay.Timeline
import PhaseSampling.Proofs.Replay.Visits
import PhaseSampling.Proofs.Sampling.Bookkeeping
import PhaseSampling.Proofs.Sampling.Budget
import PhaseSampling.Proofs.Sampling.Coverage
import PhaseSampling.Proofs.Sampling.Endings
import PhaseSampling.Proofs.Sampling.Filing
import PhaseSampling.Proofs.Sampling.Itinerary
import PhaseSampling.Proofs.Sampling.Leg
import PhaseSampling.Proofs.Sampling.Overflow
import PhaseSampling.Proofs.Sampling.Progress
import PhaseSampling.Proofs.Sampling.Simulated
import PhaseSampling.Proofs.Sampling.Spacing
import PhaseSampling.Proofs.Sampling.Steady
import PhaseSampling.Proofs.Sampling.Steering
import PhaseSampling.Proofs.Sampling.Steps
import PhaseSampling.Proofs.Sampling.Tour
import PhaseSampling.Proofs.Sampling.Vectors
import PhaseSampling.Proofs.Simpoint.Names
import PhaseSampling.Proofs.Simpoint.Reading
import PhaseSampling.Proofs.Simpoint.Reload
import PhaseSampling.Proofs.Simpoint.Verdict
import PhaseSampling.Proofs.Text.Fields
import PhaseSampling.Proofs.Text.Lines
import PhaseSampling.Proofs.Text.Octets
import PhaseSampling.Proofs.Text.Symbols
import PhaseSampling.Proofs.Vector.Dump
import PhaseSampling.Proofs.Vector.Lines
import PhaseSampling.Proofs.Vector.Numbering
import PhaseSampling.Proofs.Vector.Overflow
import PhaseSampling.Proofs.Vector.Verdict
import PhaseSampling.Registry
import PhaseSampling.Replay
import PhaseSampling.Sampling
import PhaseSampling.Simpoint
import PhaseSampling.Simpoint.Json
import PhaseSampling.Sink
import PhaseSampling.Sink.Filter
import PhaseSampling.Text.Blank
import PhaseSampling.Text.Hidden
import PhaseSampling.Text.Numeral
import PhaseSampling.Text.Pieces
import PhaseSampling.Text.Quoted
import PhaseSampling.Text.Utf8
import PhaseSampling.Text.Width
import PhaseSampling.World
import PhaseSampling.Proofs.FileTree.Replacement
