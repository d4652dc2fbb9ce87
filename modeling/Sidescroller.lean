import Sidescroller.Binary32.Decimal
import Sidescroller.Binary32.Order
import Sidescroller.Binary32.Shortest
import Sidescroller.Binary32.Written
import Sidescroller.Document.Datum
import Sidescroller.Document.Record
import Sidescroller.Journal
import Sidescroller.Json.Pretty
import Sidescroller.Json.Reading
import Sidescroller.Json.Token
import Sidescroller.Level.Basic
import Sidescroller.Level.Campus
import Sidescroller.Level.Document
import Sidescroller.Level.Trigger
import Sidescroller.Main
import Sidescroller.Plane
import Sidescroller.Player.Body
import Sidescroller.Player.Camera
import Sidescroller.Player.Character
import Sidescroller.Player.Collision
import Sidescroller.Player.Document
import Sidescroller.Player.Intent
import Sidescroller.Proofs.Binary32.Addition
import Sidescroller.Proofs.Binary32.Clamp
import Sidescroller.Proofs.Binary32.Neighbour
import Sidescroller.Proofs.Binary32.Order
import Sidescroller.Proofs.Binary32.Pattern
import Sidescroller.Proofs.Binary32.Rounding
import Sidescroller.Proofs.Binary32.Same
import Sidescroller.Proofs.Binary32.Sign
import Sidescroller.Proofs.Binary32.Value
import Sidescroller.Proofs.Document.Partial
import Sidescroller.Proofs.Document.Record
import Sidescroller.Proofs.Level.Trigger
import Sidescroller.Proofs.Player.Appearance
import Sidescroller.Proofs.Player.Arrangement
import Sidescroller.Proofs.Player.Collision
import Sidescroller.Proofs.Player.Contact
import Sidescroller.Proofs.Player.Document
import Sidescroller.Proofs.Player.Ejection
import Sidescroller.Proofs.Player.Flight
import Sidescroller.Proofs.Player.Floor
import Sidescroller.Proofs.Player.Flush
import Sidescroller.Proofs.Player.Frame
import Sidescroller.Proofs.Player.Naming
import Sidescroller.Proofs.Player.Stop
import Sidescroller.Proofs.Rules.Overlay
import Sidescroller.Proofs.Story.Acyclic
import Sidescroller.Proofs.Story.Breadth
import Sidescroller.Proofs.Story.Building
import Sidescroller.Proofs.Story.Chapters
import Sidescroller.Proofs.Story.Conversation
import Sidescroller.Proofs.Story.Cursor
import Sidescroller.Proofs.Story.Dangling
import Sidescroller.Proofs.Story.Document
import Sidescroller.Proofs.Story.Enumeration
import Sidescroller.Proofs.Story.Highlight
import Sidescroller.Proofs.Story.Ledger
import Sidescroller.Proofs.Story.Milestones
import Sidescroller.Proofs.Story.Partition
import Sidescroller.Proofs.Story.Reach
import Sidescroller.Proofs.Story.Refusal
import Sidescroller.Proofs.Story.Rewording
import Sidescroller.Proofs.Story.Search
import Sidescroller.Proofs.Story.Session
import Sidescroller.Proofs.Story.Setup
import Sidescroller.Proofs.Story.Trail
import Sidescroller.Proofs.Text.ByteOrder
import Sidescroller.Proofs.Text.Placeholder
import Sidescroller.Proofs.World.Chronicle
import Sidescroller.Proofs.World.Coherence
import Sidescroller.Proofs.World.Cooldown
import Sidescroller.Proofs.World.Faults
import Sidescroller.Proofs.World.Flight
import Sidescroller.Proofs.World.Focus
import Sidescroller.Proofs.World.Keys
import Sidescroller.Proofs.World.Menu
import Sidescroller.Proofs.World.Modes
import Sidescroller.Proofs.World.Patience
import Sidescroller.Proofs.World.Recasting
import Sidescroller.Proofs.World.Replay
import Sidescroller.Proofs.World.Run
import Sidescroller.Proofs.World.Setup
import Sidescroller.Proofs.World.Steering
import Sidescroller.Proofs.World.Suspension
import Sidescroller.Rules.Basic
import Sidescroller.Rules.Document
import Sidescroller.Rules.Loading
import Sidescroller.Rules.Violation
import Sidescroller.Story.Academy
import Sidescroller.Story.Chapters
import Sidescroller.Story.Document
import Sidescroller.Story.Graph
import Sidescroller.Story.Node
import Sidescroller.Story.Script
import Sidescroller.Story.Session
import Sidescroller.Text
import Sidescroller.Toml.Moment
import Sidescroller.Toml.Reading
import Sidescroller.Toml.Scalar
import Sidescroller.Toml.Table
import Sidescroller.Toml.Text
import Sidescroller.World.Basic
import Sidescroller.World.Document
import Sidescroller.World.Event
import Sidescroller.World.Tour
