import TapeMachine.Main
import TapeMachine.Proofs.Bracket.Agreement
import TapeMachine.Proofs.Bracket.Nesting
import TapeMachine.Proofs.Characters.Chunks
import TapeMachine.Proofs.Characters.RoundTrip
import TapeMachine.Proofs.Command.Agreement
import TapeMachine.Proofs.Command.Effects
import TapeMachine.Proofs.Listing.Recovery
import TapeMachine.Proofs.Machine.History
import TapeMachine.Proofs.Machine.Observation
import TapeMachine.Proofs.Machine.Reading
import TapeMachine.Proofs.Machine.Replay
import TapeMachine.Proofs.Machine.Unread
import TapeMachine.Proofs.Settings.Harmless
import TapeMachine.Proofs.Structured.Echo
import TapeMachine.Proofs.Structured.Layout
import TapeMachine.Proofs.Structured.Sequence
import TapeMachine.Proofs.Tape.Extension
import TapeMachine.Proofs.Tape.Rotation
import TapeMachine.Proofs.Tape.Widening
import TapeMachine.Session
import TapeMachine.Storage.Directory
import TapeMachine.Proofs.Blanks
import TapeMachine.Proofs.Settings.LineForms
import TapeMachine.Proofs.Settings.Assignments
import TapeMachine.Proofs.Settings.LastAssignment
import TapeMachine.Proofs.Settings.Spelling
import TapeMachine.Proofs.Settings.Comments
import TapeMachine.Proofs.Report.Window
import TapeMachine.Proofs.LineEnds
