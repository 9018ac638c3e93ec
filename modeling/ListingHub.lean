import ListingHub.ApiDocument
import ListingHub.Configuration
import ListingHub.Http.App
import ListingHub.Hub.Schedule
import ListingHub.Table
import ListingHub.Uuid
import ListingHub.Proofs.Dispatch
import ListingHub.Proofs.Handling
import ListingHub.Proofs.Hub.Lifecycle
import ListingHub.Proofs.Hub.Pushes
import ListingHub.Proofs.Hub.Schedule
import ListingHub.Proofs.Exchange
import ListingHub.Proofs.Interleaving
import ListingHub.Proofs.Session.Standstill
import ListingHub.Proofs.Session.Cause
import ListingHub.Proofs.Envelope
import ListingHub.Proofs.Envelope.Frames
import ListingHub.Proofs.Http.Caller
import ListingHub.Proofs.Http.Isolation
import ListingHub.Proofs.Registration
import ListingHub.Proofs.Commuting
import ListingHub.Proofs.Calls
import ListingHub.Proofs.Broadcast.Order
import ListingHub.Proofs.Registration.Again
import ListingHub.Proofs.Session.Alone
import ListingHub.Proofs.Session.Deadline
import ListingHub.Proofs.Session.Sending
import ListingHub.Proofs.Event.Payload
import ListingHub.Proofs.Envelope.Push
import ListingHub.Proofs.Configuration.Variables
import ListingHub.Proofs.Configuration.Switches
import ListingHub.Proofs.Router
import ListingHub.Proofs.Table
import ListingHub.Proofs.Http.Failure
import ListingHub.Proofs.Hub.Refusals
