import TurtleCurves.Calendar
import TurtleCurves.Command.Arguments
import TurtleCurves.Command.Run
import TurtleCurves.Decimal.Compact
import TurtleCurves.Environment.Assignments
import TurtleCurves.Explorer.Operation
import TurtleCurves.Explorer.Report
import TurtleCurves.Journal.Filter
import TurtleCurves.Main
import TurtleCurves.Proofs.Animation.Budget
import TurtleCurves.Proofs.Animation.Cadence
import TurtleCurves.Proofs.Animation.Guard
import TurtleCurves.Proofs.Color.Gradient
import TurtleCurves.Proofs.Color.Interpolation
import TurtleCurves.Proofs.Decimal.Grouping
import TurtleCurves.Proofs.Decimal.Reading
import TurtleCurves.Proofs.Decimal.Shortest
import TurtleCurves.Proofs.Explorer.Assignment
import TurtleCurves.Proofs.Explorer.Ceiling
import TurtleCurves.Proofs.Explorer.Editing
import TurtleCurves.Proofs.Explorer.Import
import TurtleCurves.Proofs.Explorer.Iteration
import TurtleCurves.Proofs.Explorer.Release
import TurtleCurves.Proofs.Explorer.Selection
import TurtleCurves.Proofs.Explorer.SettingsText
import TurtleCurves.Proofs.Frame.Brackets
import TurtleCurves.Proofs.Frame.Colors
import TurtleCurves.Proofs.Frame.Positions
import TurtleCurves.Proofs.Frame.Repainting
import TurtleCurves.Proofs.Frame.Scaling
import TurtleCurves.Proofs.Frame.Tracking
import TurtleCurves.Proofs.Grammar.Alphabet
import TurtleCurves.Proofs.Grammar.Answers
import TurtleCurves.Proofs.Grammar.RuleText
import TurtleCurves.Proofs.Raster.Coverage
import TurtleCurves.Proofs.Raster.Extents
import TurtleCurves.Proofs.Raster.Line
import TurtleCurves.Proofs.Raster.Painting
import TurtleCurves.Proofs.Raster.Writes
import TurtleCurves.Proofs.Settings.RoundTrip
import TurtleCurves.Proofs.Turtle.Branches
import TurtleCurves.Proofs.View.Anchor
import TurtleCurves.Proofs.View.Grip
import TurtleCurves.Proofs.View.Magnification
import TurtleCurves.Proofs.View.Range
import TurtleCurves.Proofs.Window.Drags
import TurtleCurves.Proofs.Window.Fingers
import TurtleCurves.Proofs.Window.Pinches
import TurtleCurves.Proofs.Window.Rounds
import TurtleCurves.Proofs.Window.Taps
import TurtleCurves.Raster.Png
import TurtleCurves.Scalar.Binary64
import TurtleCurves.Settings.File
import TurtleCurves.Storage.Directory
import TurtleCurves.Text.Quoted
import TurtleCurves.Window.Canvas
import TurtleCurves.Window.Visit
