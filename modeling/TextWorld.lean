import TextWorld.Text.Blank
import TextWorld.Text.Lowercase
import TextWorld.Text.Quoted
import TextWorld.Decimal.Shortest
import TextWorld.Decimal.Reading
import TextWorld.Table
import TextWorld.Queue
import TextWorld.ZonedKey
import TextWorld.Value
import TextWorld.World.Operation
import TextWorld.Command.Line
import TextWorld.Command.Resolution
import TextWorld.Engine.Mailbox
import TextWorld.Engine.Program
import TextWorld.Engine.Tick
import TextWorld.Play.Village
import TextWorld.Main
import TextWorld.Proofs.World.Containment
import TextWorld.Proofs.Engine.Composition
import TextWorld.Proofs.Engine.Steps
import TextWorld.Proofs.Engine.Going
import TextWorld.Proofs.Engine.FollowUps
import TextWorld.Proofs.Engine.Answering
import TextWorld.Proofs.Engine.Worldly
import TextWorld.Proofs.Engine.Gates
import TextWorld.Proofs.Engine.Timing
import TextWorld.Proofs.Engine.Firing
import TextWorld.Proofs.Engine.Ticking
import TextWorld.Proofs.Engine.Machine
import TextWorld.Proofs.Engine.Following
import TextWorld.Proofs.Conversation.Lineage
import TextWorld.Proofs.Conversation.Scheduling
import TextWorld.Proofs.Conversation.Due
import TextWorld.Proofs.Conversation.Coherence
import TextWorld.Proofs.Conversation.Closing
import TextWorld.Proofs.Engine.Structure
import TextWorld.Proofs.Engine.Ledger
import TextWorld.Proofs.Engine.Deliveries
import TextWorld.Proofs.World.Occupancy
import TextWorld.Proofs.World.Refusal
import TextWorld.Proofs.Engine.Ensuring
import TextWorld.Proofs.Engine.Tame
import TextWorld.Proofs.Play.Conduct
import TextWorld.Proofs.Play.Scene
import TextWorld.Proofs.Conversation.Regrouping
import TextWorld.Proofs.Play.Innkeeper
import TextWorld.Proofs.Play.Playing
import TextWorld.Proofs.Play.Serving
import TextWorld.Proofs.Play.Opening
import TextWorld.Proofs.Play.Patience
import TextWorld.Proofs.Play.Secrecy
import TextWorld.Proofs.Play.Shorthand
import TextWorld.Proofs.Command.Registering
import TextWorld.Proofs.Engine.Mirroring
import TextWorld.Proofs.Engine.Unnoticed
import TextWorld.Proofs.Engine.Yielding
import TextWorld.Proofs.Play.Authority
import TextWorld.Proofs.Play.Hiding
import TextWorld.Proofs.Play.Locking
import TextWorld.Proofs.Conversation.Agenda
import TextWorld.Proofs.Command.Language
import TextWorld.Proofs.Command.Roster
import TextWorld.Proofs.World.Issuing
import TextWorld.Proofs.World.Doors
import TextWorld.Proofs.Command.Alignment
import TextWorld.Proofs.Command.Scope
import TextWorld.Proofs.Command.Extending
import TextWorld.Proofs.Command.Naming
import TextWorld.Proofs.Command.Abbreviating
import TextWorld.Proofs.Play.Advertising
import TextWorld.Proofs.Conversation.Listening
import TextWorld.Proofs.Conversation.Admission
import TextWorld.Proofs.Engine.Telling
import TextWorld.Proofs.Play.Discretion
import TextWorld.Proofs.Command.Undoing
import TextWorld.Proofs.Engine.Brevity
import TextWorld.Proofs.Play.Promptness
import TextWorld.Proofs.Play.Tolling
import TextWorld.Proofs.Play.Founding
import TextWorld.Proofs.Play.Timekeeping
import TextWorld.Proofs.Shell.Enduring
import TextWorld.Proofs.Text.Keys
import TextWorld.Proofs.Command.Spacing
import TextWorld.Proofs.Shell.Scripting
