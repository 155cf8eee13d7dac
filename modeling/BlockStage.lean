import BlockStage.Block.Basic
import BlockStage.Block.Saved
import BlockStage.Camera
import BlockStage.Clock
import BlockStage.Color
import BlockStage.Decimal.Basic
import BlockStage.Decimal.Reading
import BlockStage.Decimal.Scaling
import BlockStage.Decimal.Shortest
import BlockStage.Dice
import BlockStage.Display.Instances
import BlockStage.Easing
import BlockStage.Effect.Basic
import BlockStage.Effect.Particle
import BlockStage.Effect.Registry
import BlockStage.Failure
import BlockStage.Geometry.Box
import BlockStage.Geometry.Matrix
import BlockStage.Geometry.Vector
import BlockStage.Input
import BlockStage.Json.Document
import BlockStage.Json.Grammar
import BlockStage.Json.Numeral
import BlockStage.Json.Quoted
import BlockStage.Json.Record
import BlockStage.Json.Value
import BlockStage.Page
import BlockStage.Palette.Entry
import BlockStage.Palette.Parameter
import BlockStage.Palette.Standard
import BlockStage.Player.Basic
import BlockStage.Player.Motion
import BlockStage.Proofs.Block.Numbering
import BlockStage.Proofs.Block.Saving
import BlockStage.Proofs.Dice.Draws
import BlockStage.Proofs.Effect.Histories
import BlockStage.Proofs.Effect.Stepping
import BlockStage.Proofs.Events.Delivery
import BlockStage.Proofs.Events.Raising
import BlockStage.Proofs.Json.Grammar
import BlockStage.Proofs.Json.Lookup
import BlockStage.Proofs.Json.Numerals
import BlockStage.Proofs.Json.Quoted
import BlockStage.Proofs.Json.Records
import BlockStage.Proofs.Json.Values
import BlockStage.Proofs.Log.Accounts
import BlockStage.Proofs.Log.Chronicle
import BlockStage.Proofs.Log.Covering
import BlockStage.Proofs.Log.Glides
import BlockStage.Proofs.Log.Landing
import BlockStage.Proofs.Log.Passing
import BlockStage.Proofs.Log.Traces
import BlockStage.Proofs.Page.Drawing
import BlockStage.Proofs.Page.Picking
import BlockStage.Proofs.Page.Viewport
import BlockStage.Proofs.Palette.Checking
import BlockStage.Proofs.Palette.Lowering
import BlockStage.Proofs.Palette.Rechecking
import BlockStage.Proofs.Player.Standing
import BlockStage.Proofs.Removal.Deeds
import BlockStage.Proofs.Removal.Final
import BlockStage.Proofs.Removal.Frames
import BlockStage.Proofs.Run.Books
import BlockStage.Proofs.Run.Commuting
import BlockStage.Proofs.Run.Drive
import BlockStage.Proofs.Run.Effects
import BlockStage.Proofs.Run.Evolution
import BlockStage.Proofs.Run.Frames
import BlockStage.Proofs.Run.Halting
import BlockStage.Proofs.Run.Identity
import BlockStage.Proofs.Run.Keeping
import BlockStage.Proofs.Run.Launching
import BlockStage.Proofs.Run.Lives
import BlockStage.Proofs.Run.Ownership
import BlockStage.Proofs.Run.Provenance
import BlockStage.Proofs.Run.Quiet
import BlockStage.Proofs.Run.Recast
import BlockStage.Proofs.Run.Renumbering
import BlockStage.Proofs.Run.Reseeding
import BlockStage.Proofs.Run.Roster
import BlockStage.Proofs.Run.Rounds
import BlockStage.Proofs.Run.Spawning
import BlockStage.Proofs.Run.Steps
import BlockStage.Proofs.Run.Ticking
import BlockStage.Proofs.Run.Turns
import BlockStage.Proofs.Scalar.Comparing
import BlockStage.Proofs.Scalar.Narrowing
import BlockStage.Proofs.Scalar.Packing
import BlockStage.Proofs.Scalar.Parts
import BlockStage.Proofs.Scalar.Quarters
import BlockStage.Proofs.Scalar.Rounding
import BlockStage.Proofs.Scalar.Sums
import BlockStage.Proofs.Scalar.Wholes
import BlockStage.Proofs.Scene.Colours
import BlockStage.Proofs.Scene.Distinct
import BlockStage.Proofs.Scene.Ids
import BlockStage.Proofs.Scene.Numbers
import BlockStage.Proofs.Scene.Placing
import BlockStage.Proofs.Scene.Resaving
import BlockStage.Proofs.Scene.Saving
import BlockStage.Proofs.Script.Finiteness
import BlockStage.Proofs.Script.Keys
import BlockStage.Proofs.Script.Meaning
import BlockStage.Proofs.Script.Rereading
import BlockStage.Proofs.Session.Accounts
import BlockStage.Proofs.Session.Awaiting
import BlockStage.Proofs.Session.Census
import BlockStage.Proofs.Session.Clock
import BlockStage.Proofs.Session.Conditions
import BlockStage.Proofs.Session.Countdowns
import BlockStage.Proofs.Session.Crossings
import BlockStage.Proofs.Session.Edits
import BlockStage.Proofs.Session.Gliding
import BlockStage.Proofs.Session.Identity
import BlockStage.Proofs.Session.Independence
import BlockStage.Proofs.Session.Keys
import BlockStage.Proofs.Session.Opening
import BlockStage.Proofs.Session.Playing
import BlockStage.Proofs.Session.Reach
import BlockStage.Proofs.Session.Recording
import BlockStage.Proofs.Session.Reloading
import BlockStage.Proofs.Session.Resting
import BlockStage.Proofs.Session.Restoring
import BlockStage.Proofs.Session.Seeds
import BlockStage.Proofs.Session.Showing
import BlockStage.Proofs.Session.Story
import BlockStage.Proofs.Session.Straight
import BlockStage.Proofs.Session.Timers
import BlockStage.Proofs.Structured.Basic
import BlockStage.Proofs.Structured.Counting
import BlockStage.Proofs.Structured.Refinement
import BlockStage.Proofs.Text.HexColours
import BlockStage.Proofs.Text.Labels
import BlockStage.Proofs.Waiting.Padding
import BlockStage.Proofs.Waiting.Solo
import BlockStage.Proofs.Waiting.Strides
import BlockStage.Queue
import BlockStage.Run.Dispatcher
import BlockStage.Run.Execute
import BlockStage.Run.Frame
import BlockStage.Run.Notice
import BlockStage.Run.Program
import BlockStage.Run.Scheduler
import BlockStage.Run.Step
import BlockStage.Run.Task
import BlockStage.Run.Variables
import BlockStage.Run.Work
import BlockStage.Run.World
import BlockStage.Scalar.Exact
import BlockStage.Scalar.Order
import BlockStage.Scene.Basic
import BlockStage.Scene.Object
import BlockStage.Scene.Project
import BlockStage.Script.Arguments
import BlockStage.Script.Command
import BlockStage.Script.Compiled
import BlockStage.Script.Condition
import BlockStage.Script.Event
import BlockStage.Script.Opcode
import BlockStage.Script.Written
import BlockStage.Session
import BlockStage.Settings
import BlockStage.Text.Blank
import BlockStage.Text.Hex
import BlockStage.Text.KeyLabel
import BlockStage.Text.Lowercase
import BlockStage.Text.WordEnd
