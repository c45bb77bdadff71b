import Courier.Config.Reader
import Courier.Decimal.Reader
import Courier.Frame.Decoder
import Courier.Scenario
import Courier.Proofs.Bytes
import Courier.Proofs.Client.Runs
import Courier.Proofs.Abi.Races
import Courier.Proofs.Abi.Submission
import Courier.Proofs.Forward.Attribution
import Courier.Proofs.Frame.Kinds
import Courier.Proofs.Frame.RoundTrip
import Courier.Proofs.Frame.Chunks
import Courier.Proofs.Forward.Endings
import Courier.Proofs.Forward.HostedWorker
import Courier.Proofs.Forward.Written
import Courier.Proofs.Forward.Stopping
import Courier.Proofs.Forward.Transmission
import Courier.Proofs.Frame.Acceptance
import Courier.Proofs.Abi.Handles
import Courier.Proofs.Client.Packets
import Courier.Proofs.Client.Requests
import Courier.Proofs.Abi.Ownership
import Courier.Proofs.Echo.Answers
import Courier.Proofs.Echo.ThreadedClient
import Courier.Proofs.Echo.Dispatch
import Courier.Proofs.Client.Mirrors
import Courier.Proofs.Abi.Tenants
import Courier.Proofs.Abi.Isolation
import Courier.Proofs.Address.Readers
import Courier.Proofs.Address.Lists
import Courier.Proofs.Forward.Reading
import Courier.Proofs.Client.Mapping
import Courier.Proofs.Engine.Mended
import Courier.Proofs.Abi.Locks
import Courier.Proofs.Abi.Panics
import Courier.Proofs.Client.Deliveries
import Courier.Proofs.Client.Schedules
import Courier.Proofs.Address.Grammar
import Courier.Proofs.Address.Entries
import Courier.Proofs.Address.Texts
import Courier.Proofs.Address.Composition
import Courier.Proofs.Forward.Observations
import Courier.Proofs.Limits
import Courier.Proofs.Forward.Visits
import Courier.Proofs.Forward.Omission
import Courier.Proofs.Forward.Reconnection
import Courier.Proofs.Config.Values
import Courier.Proofs.Config.Entries
import Courier.Proofs.Config.Items
