import Daybook.Main
import Daybook.Proofs.Text.Pieces
import Daybook.Proofs.Text.Scan
import Daybook.Proofs.Text.Digit
import Daybook.Proofs.Entry.Time
import Daybook.Proofs.Instruction.Label
import Daybook.Proofs.Instruction.Link
import Daybook.Proofs.Instruction.Opening
import Daybook.Proofs.Instruction.Creation
import Daybook.Proofs.Exchange
import Daybook.Proofs.Json.RoundTrip
import Daybook.Proofs.Json.Line
import Daybook.Proofs.Outbox.Pending
import Daybook.Proofs.Outbox.Fifo
import Daybook.Proofs.Outbox.Redelivery
import Daybook.Proofs.Form.Sound
import Daybook.Proofs.Form.Progress
import Daybook.Proofs.Outbox.Resend
import Daybook.Proofs.Dialogue
import Daybook.Proofs.Faults
import Daybook.Proofs.Instruction.Deletion
import Daybook.Proofs.Session.Run
import Daybook.Proofs.Session.SingleFlow
import Daybook.Proofs.Session.Deletion
import Daybook.Proofs.Session.Confirmed
import Daybook.Proofs.Session.Expected
import Daybook.Proofs.Session.Answered
import Daybook.Proofs.Session.Question
import Daybook.Proofs.Form.Script
import Daybook.Proofs.Revision.Move
import Daybook.Proofs.Revision.Line
import Daybook.Proofs.Revision.Page
import Daybook.Proofs.Revision.Edit
import Daybook.Proofs.Revision.Edits
import Daybook.Proofs.Revision.Places
import Daybook.Proofs.Revision.Rectangular
import Daybook.Proofs.Revision.Cancelled
import Daybook.Proofs.Session.Fresh
import Daybook.Proofs.Session.Preview
import Daybook.Proofs.LastAnswer
import Daybook.Proofs.Session.Failure
import Daybook.Proofs.Instruction.Content
import Daybook.Proofs.Instruction.Filter
import Daybook.Proofs.Instruction.Change
import Daybook.Proofs.Entry.Event
import Daybook.Proofs.Revision.Retyped
import Daybook.Proofs.Revision.Reorder
import Daybook.Proofs.Instruction.Agreement
import Daybook.Proofs.Instruction.Written
import Daybook.Proofs.Instruction.Query
import Daybook.Proofs.Session.Sendable
import Daybook.Proofs.Session.Named
import Daybook.Proofs.Instruction.Picture
import Daybook.Proofs.Session.Picture
import Daybook.Proofs.Backend.Classified
import Daybook.Proofs.Revision.Reopened
import Daybook.Proofs.Terminal.Loop
import Daybook.Proofs.Speakers
import Daybook.Proofs.Terminal.Echo
