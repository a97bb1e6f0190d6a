import TriggerSheet.Activation
import TriggerSheet.CommandLine
import TriggerSheet.Diagnostic
import TriggerSheet.Effect.Call
import TriggerSheet.Effect.Category
import TriggerSheet.Effect.FadeColor
import TriggerSheet.Effect.Registry
import TriggerSheet.Effect.Scale
import TriggerSheet.Effect.Shake
import TriggerSheet.Effect.Slide
import TriggerSheet.Effect.Slot
import TriggerSheet.EventName
import TriggerSheet.Folder
import TriggerSheet.Main
import TriggerSheet.Note
import TriggerSheet.Numeral.Decimal
import TriggerSheet.Numeral.Magnitude
import TriggerSheet.Numeral.Shortest
import TriggerSheet.Options
import TriggerSheet.Proofs.Activation
import TriggerSheet.Proofs.Effect.Canonical
import TriggerSheet.Proofs.Effect.Index
import TriggerSheet.Proofs.Effect.Slots
import TriggerSheet.Proofs.Numeral.Reading
import TriggerSheet.Proofs.Numeral.Rounding
import TriggerSheet.Proofs.Report.Verdict
import TriggerSheet.Proofs.Scene.Account
import TriggerSheet.Proofs.Scene.Alone
import TriggerSheet.Proofs.Scene.Bound
import TriggerSheet.Proofs.Scene.Calm
import TriggerSheet.Proofs.Scene.Cancel
import TriggerSheet.Proofs.Scene.Contribution
import TriggerSheet.Proofs.Scene.Course
import TriggerSheet.Proofs.Scene.Forget
import TriggerSheet.Proofs.Scene.Gain
import TriggerSheet.Proofs.Scene.Handed
import TriggerSheet.Proofs.Scene.Hold
import TriggerSheet.Proofs.Scene.HoldRun
import TriggerSheet.Proofs.Scene.Independence
import TriggerSheet.Proofs.Scene.Lead
import TriggerSheet.Proofs.Scene.Ledger
import TriggerSheet.Proofs.Scene.Move
import TriggerSheet.Proofs.Scene.Mute
import TriggerSheet.Proofs.Scene.Observation
import TriggerSheet.Proofs.Scene.Operation
import TriggerSheet.Proofs.Scene.Orderly
import TriggerSheet.Proofs.Scene.Press
import TriggerSheet.Proofs.Scene.Registration
import TriggerSheet.Proofs.Scene.Release
import TriggerSheet.Proofs.Scene.Reveal
import TriggerSheet.Proofs.Scene.Settle
import TriggerSheet.Proofs.Scene.Tally
import TriggerSheet.Proofs.Scene.Trace
import TriggerSheet.Proofs.Scene.Trial
import TriggerSheet.Proofs.Scene.Unbind
import TriggerSheet.Proofs.Sheet.Closing
import TriggerSheet.Proofs.Sheet.Confinement
import TriggerSheet.Proofs.Sheet.Depth
import TriggerSheet.Proofs.Sheet.Layout
import TriggerSheet.Proofs.Sheet.Nesting
import TriggerSheet.Proofs.Sheet.Reading
import TriggerSheet.Proofs.Sheet.Rendering
import TriggerSheet.Proofs.Sheet.Scan
import TriggerSheet.Proofs.Sheet.Seam
import TriggerSheet.Proofs.Sheet.Spans
import TriggerSheet.Proofs.Sheet.Stretches
import TriggerSheet.Proofs.Sheet.Stripping
import TriggerSheet.Proofs.Sheet.Terminator
import TriggerSheet.Proofs.Sheet.Words
import TriggerSheet.Proofs.Text.Fold
import TriggerSheet.Proofs.Text.Pieces
import TriggerSheet.Proofs.Text.Split
import TriggerSheet.Proofs.Value.Amount
import TriggerSheet.Proofs.Value.Color
import TriggerSheet.Proofs.Value.Duration
import TriggerSheet.Proofs.Value.Forms
import TriggerSheet.Report
import TriggerSheet.Scene.Basic
import TriggerSheet.Scene.Binding
import TriggerSheet.Scene.Firing
import TriggerSheet.Scene.Page
import TriggerSheet.Scene.Play
import TriggerSheet.Scene.Reaction
import TriggerSheet.Sheet.Action
import TriggerSheet.Sheet.Basic
import TriggerSheet.Sheet.Comment
import TriggerSheet.Sheet.Group
import TriggerSheet.Sheet.Reader
import TriggerSheet.Subscription
import TriggerSheet.Text.Ascii
import TriggerSheet.Text.Blank
import TriggerSheet.Text.DecimalDigit
import TriggerSheet.Text.Picture
import TriggerSheet.Text.Quoted
import TriggerSheet.Text.TopLevel
import TriggerSheet.Value.Color
import TriggerSheet.Value.Duration
import TriggerSheet.Value.Error
