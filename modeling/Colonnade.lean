import Colonnade.Boundary.Foreign
import Colonnade.CommandLine
import Colonnade.Detail
import Colonnade.Handle.Contents
import Colonnade.Host.Desk
import Colonnade.Main
import Colonnade.Proofs.Snapshot.Reached
import Colonnade.Release
import Colonnade.Report
import Colonnade.Trial
import Colonnade.Proofs.Column
import Colonnade.Proofs.Snapshot.Links
import Colonnade.Proofs.Rows
import Colonnade.Proofs.Snapshot.Aligned
import Colonnade.Proofs.Snapshot.Logical
import Colonnade.Proofs.Snapshot.Refinement
import Colonnade.Proofs.Wire.Framing
import Colonnade.Proofs.Store
import Colonnade.Proofs.History.Framed
import Colonnade.Proofs.History.Replayed
import Colonnade.Proofs.Engine.Pending
import Colonnade.Proofs.Engine.Recoverable
import Colonnade.Proofs.Engine.Steps
import Colonnade.Proofs.Engine.Run
import Colonnade.Proofs.Engine.Interleaved
import Colonnade.Proofs.Engine.Committed
import Colonnade.Proofs.Engine.Outcomes
import Colonnade.Proofs.Engine.Handled
import Colonnade.Proofs.Engine.Events
import Colonnade.Proofs.Engine.Stepped
import Colonnade.Proofs.Engine.Serial
import Colonnade.Proofs.History.Cut
import Colonnade.Proofs.Snapshot.Counted
import Colonnade.Proofs.Engine.Ledger
import Colonnade.Proofs.Engine.Crash
import Colonnade.Proofs.History.Damaged
import Colonnade.Proofs.Engine.Closures
import Colonnade.Proofs.History.Appending
import Colonnade.Proofs.Engine.Untraced
import Colonnade.Proofs.Snapshot.Evolved
import Colonnade.Proofs.Snapshot.Regular
import Colonnade.Proofs.Engine.Writing
import Colonnade.Proofs.Engine.Turns
import Colonnade.Proofs.Engine.Uses
import Colonnade.Proofs.Engine.Validity
import Colonnade.Proofs.Engine.Isolation
import Colonnade.Proofs.Wire.RoundTrip
import Colonnade.Proofs.Wire.Spelling
import Colonnade.Proofs.History.Opened
import Colonnade.Proofs.History.Acknowledged
import Colonnade.Proofs.Snapshot.Declared
import Colonnade.Proofs.Snapshot.Identity
import Colonnade.Proofs.Pins
import Colonnade.Proofs.Engine.Booked
import Colonnade.Proofs.Engine.Accounts
import Colonnade.Proofs.Engine.Traffic
import Colonnade.Proofs.Engine.Courses
import Colonnade.Proofs.Engine.Handover
import Colonnade.Proofs.Engine.Formats
import Colonnade.Proofs.Boundary.Calls
import Colonnade.Proofs.Boundary.Rejected
import Colonnade.Proofs.Engine.Annals
import Colonnade.Proofs.Snapshot.Origins
import Colonnade.Proofs.Engine.Granted
import Colonnade.Proofs.Engine.Imports
import Colonnade.Proofs.Boundary.Arena
import Colonnade.Proofs.Boundary.Loans
import Colonnade.Proofs.Engine.Posts
import Colonnade.Proofs.Boundary.Operations
import Colonnade.Proofs.Boundary.Writers
import Colonnade.Proofs.Engine.Maps
import Colonnade.Proofs.Trial.RowModel
import Colonnade.Proofs.Trial.RowTable
import Colonnade.Proofs.Report.Verified
import Colonnade.Proofs.Engine.Ended
import Colonnade.Proofs.Snapshot.Balance
import Colonnade.Proofs.Engine.Lookups
import Colonnade.Proofs.Snapshot.Slotted
import Colonnade.Proofs.Value
import Colonnade.Proofs.Snapshot.Searched
import Colonnade.Proofs.Snapshot.Observed
import Colonnade.Proofs.Snapshot.Verdict
import Colonnade.Proofs.Snapshot.Removed
import Colonnade.Proofs.Snapshot.Commuting
import Colonnade.Proofs.Snapshot.Cleared
import Colonnade.Proofs.Engine.Cleared
import Colonnade.Proofs.Engine.Counters
import Colonnade.Proofs.Snapshot.Seated
import Colonnade.Proofs.Snapshot.Misuse
import Colonnade.Proofs.Engine.Wrought
import Colonnade.Proofs.Engine.Misuse
import Colonnade.Proofs.Boundary.Served
import Colonnade.Proofs.Engine.Cells
import Colonnade.Proofs.Boundary.Nulling
import Colonnade.Proofs.Boundary.Linking
import Colonnade.Proofs.Engine.Onlookers
import Colonnade.Proofs.Trial.Book
import Colonnade.Proofs.Trial.Ledger
import Colonnade.Proofs.Trial.Course
import Colonnade.Proofs.Timestamp
import Colonnade.Proofs.Report.Gaps
import Colonnade.Proofs.Host.Filed
import Colonnade.Proofs.Host.Held
import Colonnade.Proofs.Faults
import Colonnade.Proofs.History.Joined
import Colonnade.Proofs.Wire.Bounded
import Colonnade.Proofs.Engine.Mild
import Colonnade.Proofs.Engine.Stale
