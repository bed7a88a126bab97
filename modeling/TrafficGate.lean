import TrafficGate.Json.Parse
import TrafficGate.Main
import TrafficGate.MemoryServer
import TrafficGate.Proofs.Dialogue.Calls
import TrafficGate.Proofs.Association.Settling
import TrafficGate.Proofs.Association.Lifecycle
import TrafficGate.Proofs.Filter.Lifecycle
import TrafficGate.Proofs.Client.Exchanges
import TrafficGate.Proofs.Resource.Tracking
import TrafficGate.Proofs.Association.Lists
import TrafficGate.Proofs.Association.Sequential
import TrafficGate.Proofs.Dialogue.Interleaving
import TrafficGate.Proofs.Association.Interleaved
import TrafficGate.Proofs.Association.LostUpdate
import TrafficGate.Proofs.Association.Retrying
import TrafficGate.Proofs.Association.Requests
import TrafficGate.Proofs.Filter.Convergence
import TrafficGate.Proofs.Text.Utf8
import TrafficGate.Proofs.Json.Texts
import TrafficGate.Proofs.Json.Reading
import TrafficGate.Proofs.Json.Canonical
import TrafficGate.Proofs.Codecs
import TrafficGate.Proofs.Filter.Wire
import TrafficGate.Proofs.Filter.Creation
import TrafficGate.Proofs.Url.Segments
import TrafficGate.Proofs.Url.Endpoint
import TrafficGate.Proofs.Client.Addresses
import TrafficGate.Proofs.Client.Repetition
import TrafficGate.Proofs.Association.Kinds
import TrafficGate.Proofs.Resource.Ensures
import TrafficGate.Proofs.Resource.WellFormed
import TrafficGate.Proofs.Association.Wire
import TrafficGate.Proofs.Program.Endings
import TrafficGate.Proofs.Text.Split
import TrafficGate.Proofs.Association.ImportKeys
import TrafficGate.Proofs.Association.Identity
import TrafficGate.Proofs.Program.Importing
import TrafficGate.Proofs.Filter.Requests
import TrafficGate.Proofs.Program.Reports
import TrafficGate.Proofs.Project.InlineFilters
import TrafficGate.Proofs.Project.Views
import TrafficGate.Proofs.Filter.Comparison
import TrafficGate.Proofs.Client.Patience
import TrafficGate.Proofs.Client.Pauses
import TrafficGate.Proofs.Association.Remarks
import TrafficGate.Proofs.Resource.Classification
import TrafficGate.Proofs.CommandLine.Levels
import TrafficGate.Proofs.CommandLine.Lines
import TrafficGate.Proofs.Association.Memberships
