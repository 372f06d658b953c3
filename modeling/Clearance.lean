import Clearance.Batch
import Clearance.Counter.Registry
import Clearance.Main
import Clearance.Operation.Shipped
import Clearance.Proofs.Authorizer.Calls
import Clearance.Proofs.Authorizer.Verdict
import Clearance.Proofs.Counter.Registry
import Clearance.Proofs.Authorizer.Counting
import Clearance.Counter.Shared
import Clearance.Proofs.Counter.Reader
import Clearance.Proofs.Counter.Shared
import Clearance.Proofs.Counter.Progress
import Clearance.Session
import Clearance.Proofs.Authorizer.Granting
import Clearance.Proofs.Authorizer.Waiver
import Clearance.Proofs.Counter.Tally
import Clearance.Proofs.Callers
import Clearance.Proofs.Authorizer.Likeness
import Clearance.Proofs.Command.Stages
import Clearance.Proofs.Command.Exit
import Clearance.Proofs.Operation.Document
import Clearance.Proofs.Toml.Ordered
import Clearance.Proofs.Settings.Layering
import Clearance.Proofs.Json.Maps
import Clearance.Proofs.Grants.Building
import Clearance.Proofs.Grants.Reading
import Clearance.Proofs.Batch
import Clearance.Proofs.Counter.Exposition
import Clearance.Proofs.Command.Report
import Clearance.Proofs.Settings.Likeness
import Clearance.Proofs.Command.Observation
import Clearance.Proofs.Modes
import Clearance.Proofs.Json.Spelling
import Clearance.Proofs.Json.Strict
import Clearance.Proofs.Json.Positions
import Clearance.Proofs.Operation.Format
import Clearance.Proofs.Json.Parts
import Clearance.Proofs.Json.Printing
import Clearance.Proofs.Settings.Members
import Clearance.Proofs.RoundTrip
import Clearance.Proofs.Authorizer.Restating
import Clearance.Proofs.Authorizer.Attribution
import Clearance.Proofs.Command.Lines
import Clearance.Proofs.Event.Level
import Clearance.Proofs.Command.Logging
import Clearance.Proofs.Counter.Views
import Clearance.Proofs.Reports
import Clearance.Proofs.Vocabulary
