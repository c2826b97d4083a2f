import MotionTemplate.Canvas
import MotionTemplate.Clock
import MotionTemplate.CommandLine.Arguments
import MotionTemplate.CommandLine.Command
import MotionTemplate.CommandLine.Customizing
import MotionTemplate.CommandLine.Log
import MotionTemplate.CommandLine.Player
import MotionTemplate.CommandLine.Program
import MotionTemplate.CommandLine.Report
import MotionTemplate.Composition.Animation
import MotionTemplate.Composition.Numeric
import MotionTemplate.Composition.Resolution
import MotionTemplate.Composition.Scale
import MotionTemplate.Composition.Scope
import MotionTemplate.Composition.Visibility
import MotionTemplate.Composition.Window
import MotionTemplate.Config
import MotionTemplate.Customization
import MotionTemplate.Event
import MotionTemplate.Failure
import MotionTemplate.FileTree
import MotionTemplate.Json.Decoder
import MotionTemplate.Json.Parser
import MotionTemplate.Json.Printer
import MotionTemplate.Json.Value
import MotionTemplate.KeyMap
import MotionTemplate.Main
import MotionTemplate.Number.Layout
import MotionTemplate.Number.Measure
import MotionTemplate.Number.Reading
import MotionTemplate.Number.Shortest
import MotionTemplate.Pacing
import MotionTemplate.Preview.FrameLoop
import MotionTemplate.Preview.FrameScript
import MotionTemplate.Preview.Playhead
import MotionTemplate.Preview.Previewer
import MotionTemplate.Preview.Stage
import MotionTemplate.Proofs.AnimationPhases
import MotionTemplate.Proofs.Blank
import MotionTemplate.Proofs.ClockReading
import MotionTemplate.Proofs.DisplayScale
import MotionTemplate.Proofs.Double.Arithmetic
import MotionTemplate.Proofs.Double.Between
import MotionTemplate.Proofs.Double.Decimal
import MotionTemplate.Proofs.Double.Form
import MotionTemplate.Proofs.Double.Monotone
import MotionTemplate.Proofs.Double.Order
import MotionTemplate.Proofs.Double.Rounding
import MotionTemplate.Proofs.Double.Shortest
import MotionTemplate.Proofs.Double.Whole
import MotionTemplate.Proofs.DrawableStates
import MotionTemplate.Proofs.DroppedFrames
import MotionTemplate.Proofs.DurationChange
import MotionTemplate.Proofs.EditOrder
import MotionTemplate.Proofs.FlatCustomization
import MotionTemplate.Proofs.FrameDelivery
import MotionTemplate.Proofs.FrameHistory
import MotionTemplate.Proofs.FrameHost
import MotionTemplate.Proofs.FrameTimes
import MotionTemplate.Proofs.Freshness
import MotionTemplate.Proofs.ImageSize
import MotionTemplate.Proofs.Isolation
import MotionTemplate.Proofs.Json.NumberText
import MotionTemplate.Proofs.Json.Records
import MotionTemplate.Proofs.Json.Rereading
import MotionTemplate.Proofs.Json.Sound
import MotionTemplate.Proofs.Json.Spelling
import MotionTemplate.Proofs.KeyMap
import MotionTemplate.Proofs.LastChoice
import MotionTemplate.Proofs.LayerCrossings
import MotionTemplate.Proofs.LengthScaling
import MotionTemplate.Proofs.LoopSwitch
import MotionTemplate.Proofs.MarkerTrees
import MotionTemplate.Proofs.Markers
import MotionTemplate.Proofs.MissedTokens
import MotionTemplate.Proofs.OnScreen
import MotionTemplate.Proofs.PlayheadRange
import MotionTemplate.Proofs.PlayheadStep
import MotionTemplate.Proofs.PlayingTime
import MotionTemplate.Proofs.PollingCourse
import MotionTemplate.Proofs.PreviewEvent
import MotionTemplate.Proofs.ReferenceCheck
import MotionTemplate.Proofs.RenderExchange
import MotionTemplate.Proofs.SavedDefinition
import MotionTemplate.Proofs.ScaledBox
import MotionTemplate.Proofs.ScopeAgreement
import MotionTemplate.Proofs.ScrubGesture
import MotionTemplate.Proofs.StackingOrder
import MotionTemplate.Proofs.StageRun
import MotionTemplate.Proofs.StoredConfig
import MotionTemplate.Proofs.StoredText
import MotionTemplate.Proofs.StructuralFlaws
import MotionTemplate.Proofs.SuppliedText
import MotionTemplate.Proofs.TickSpacing
import MotionTemplate.Proofs.UsableDuration
import MotionTemplate.Render.Frame
import MotionTemplate.Render.Job
import MotionTemplate.Render.Plan
import MotionTemplate.Render.Polling
import MotionTemplate.Render.Service
import MotionTemplate.Template.Definition
import MotionTemplate.Template.Layer
import MotionTemplate.Template.References
import MotionTemplate.Template.Starter
import MotionTemplate.Template.Storage
import MotionTemplate.Template.Summary
import MotionTemplate.Template.Token
import MotionTemplate.Template.Validation
import MotionTemplate.Template.Value
import MotionTemplate.Text.Blank
import MotionTemplate.Text.Formless
import MotionTemplate.Text.Quoted
import MotionTemplate.Web.Address
