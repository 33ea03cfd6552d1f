import Metronome.Adapter.Framing
import Metronome.Adapter.Message
import Metronome.Adapter.Report
import Metronome.Adapter.Request
import Metronome.Adapter.Service
import Metronome.Adapter.Session
import Metronome.Adapter.Worker
import Metronome.CommandLine.Batch
import Metronome.CommandLine.Help
import Metronome.CommandLine.Job
import Metronome.CommandLine.Options
import Metronome.Debug.Breakpoints
import Metronome.Debug.CallDepths
import Metronome.Debug.Controller
import Metronome.Debug.Cursor
import Metronome.Debug.Stepping
import Metronome.Decimal.Binary64
import Metronome.Decimal.Layout
import Metronome.Decimal.Reading
import Metronome.Decimal.Shortest
import Metronome.Files
import Metronome.Front.CommandLoop
import Metronome.Front.Console
import Metronome.Front.Inbox
import Metronome.Front.Prompt
import Metronome.Interpreter
import Metronome.Main
import Metronome.Playback
import Metronome.Proofs.Alone
import Metronome.Proofs.Announcement
import Metronome.Proofs.Answer
import Metronome.Proofs.Arrival
import Metronome.Proofs.Breakpoint
import Metronome.Proofs.CallMarks
import Metronome.Proofs.Callback
import Metronome.Proofs.Calls
import Metronome.Proofs.Deeds
import Metronome.Proofs.Descent
import Metronome.Proofs.Dispatch
import Metronome.Proofs.Entry
import Metronome.Proofs.EntryStop
import Metronome.Proofs.Invocation
import Metronome.Proofs.Judgement
import Metronome.Proofs.Operation
import Metronome.Proofs.Pace
import Metronome.Proofs.Pass
import Metronome.Proofs.Region
import Metronome.Proofs.Requests
import Metronome.Proofs.Shape
import Metronome.Proofs.Shift
import Metronome.Proofs.Soundness
import Metronome.Proofs.StepIn
import Metronome.Proofs.StepOut
import Metronome.Proofs.StepOver
import Metronome.Proofs.Stepping
import Metronome.Proofs.Tickless
import Metronome.Proofs.Trail
import Metronome.Proofs.Transcript
import Metronome.Proofs.Transparency
import Metronome.Run.Bridge
import Metronome.Run.Burst
import Metronome.Run.Clock
import Metronome.Run.Event
import Metronome.Run.Scheduler
import Metronome.Run.Timers
import Metronome.Run.Turn
import Metronome.Script.Frame
import Metronome.Script.LogicalLine
import Metronome.Script.Machine
import Metronome.Script.Parser
import Metronome.Script.Program
import Metronome.Script.Scope
import Metronome.Script.Statement
import Metronome.Script.Token
import Metronome.Settings.Basic
import Metronome.Settings.Reading
import Metronome.Source
import Metronome.Text.Blank
import Metronome.Text.Letters
import Metronome.Text.Lines
import Metronome.Text.Quoted
import Metronome.Text.ShellWords
import Metronome.Text.Utf8
import Metronome.Time
import Metronome.Value.Basic
import Metronome.Value.Depth
import Metronome.Value.Operators
import Metronome.Value.Reading
import Metronome.Value.Writing
import Metronome.Proofs.Places
import Metronome.Proofs.Wrapping
import Metronome.Proofs.Completion
import Metronome.Proofs.Adequacy
import Metronome.Proofs.HostView
import Metronome.Proofs.TickTokens
import Metronome.Proofs.TimerOrder
import Metronome.Proofs.Budget
import Metronome.Proofs.Confinement
import Metronome.Proofs.Unwinding
import Metronome.Proofs.Standstill
import Metronome.Proofs.Setup
import Metronome.Proofs.CleanStart
import Metronome.Proofs.FrontEnds
import Metronome.Proofs.Rest
import Metronome.Proofs.Effects
import Metronome.Proofs.Highlight
import Metronome.Proofs.StopLine
import Metronome.Proofs.Integrity
import Metronome.Proofs.Conversation
import Metronome.Proofs.LatestSpeed
import Metronome.Proofs.ReadingBack
import Metronome.Proofs.RoundTrip
import Metronome.Proofs.Scanning
import Metronome.Proofs.Joining
import Metronome.Proofs.Forms
import Metronome.Proofs.Outline
import Metronome.Proofs.Nesting
import Metronome.Proofs.LineNumbers
import Metronome.Proofs.TextLines
import Metronome.Proofs.Keywords
import Metronome.Proofs.Partition
import Metronome.Proofs.UserLines
import Metronome.Proofs.TimerWait
import Metronome.Proofs.Rounding
import Metronome.Proofs.Doubles
import Metronome.Proofs.Comparison
import Metronome.Proofs.Truncation
import Metronome.Proofs.StackHeight
import Metronome.Proofs.DepthHistory
