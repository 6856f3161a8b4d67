import UniDERP.Library.Encode
import UniDERP.Library.Table
import UniDERP.Library.Relational
import UniDERP.Library.Outcome
import UniDERP.Library.Run
import UniDERP.Library.Ledger
import UniDERP.Library.TokenBucket
import UniDERP.Library.DeficitRoundRobin
import UniDERP.Library.Text
import UniDERP.Library.Hex
import UniDERP.Library.Address
import UniDERP.Time
import UniDERP.Policy
import UniDERP.PolicySize
import UniDERP.Wire
import UniDERP.Control.Schema
import UniDERP.Control.Store
import UniDERP.Control.Build
import UniDERP.Control.Accounts
import UniDERP.Control.Nodes
import UniDERP.Control.Resources
import UniDERP.Control.Grants
import UniDERP.Control.Stream
import UniDERP.Control.Identity
import UniDERP.Control.Ops
import UniDERP.Control.Effects
import UniDERP.Control.RowEdits
import UniDERP.Control.Calls
import UniDERP.Control.Freshness
import UniDERP.Control.Projection
import UniDERP.Control.Revisions
import UniDERP.Control.Instances
import UniDERP.Control.Consent
import UniDERP.Control.Enrollment
import UniDERP.Control.Revocation
import UniDERP.Control.GrantRevisions
import UniDERP.Control.Fencing
import UniDERP.Control.Streams
import UniDERP.Control.Updates
import UniDERP.Control.Farewell
import UniDERP.Control.Authorization
import UniDERP.Control.Logins
import UniDERP.Control.Acknowledgements
import UniDERP.Control.Domains
import UniDERP.Control.Leases
import UniDERP.Control.Deadlines
import UniDERP.Control.Observability
import UniDERP.Control.Reports
import UniDERP.Control.Isolation
import UniDERP.Control.EventEdits
import UniDERP.Control.ExpiryEvents
import UniDERP.Control.Expiry
import UniDERP.Control.DeviceList
import UniDERP.Control.KeyConflicts
import UniDERP.Control.IdentityEvents
import UniDERP.Control.EventList
import UniDERP.Control.QoS
import UniDERP.Control.Migrations
import UniDERP.Control.Roles
import UniDERP.Control.Verification
import UniDERP.Control.LoginLimit
import UniDERP.Control.DomainNames
import UniDERP.Control.Dialing
import UniDERP.Control.Mediation
import UniDERP.Relay.Server
import UniDERP.Relay.Admission
import UniDERP.Relay.Clocks
import UniDERP.Relay.Scheduler
import UniDERP.Relay.Ceilings
import UniDERP.Relay.Fairness
import UniDERP.Relay.WorkConservation
import UniDERP.Relay.Traffic
import UniDERP.Relay.Installation
import UniDERP.Relay.Packets
import UniDERP.Relay.Requests
import UniDERP.Relay.Rings
import UniDERP.Node.Cache
import UniDERP.Node.Delivery
import UniDERP.Node.Applied
import UniDERP.Node.Registration
import UniDERP.Node.Control
import UniDERP.Node.Asking
import UniDERP.Node.Restart
import UniDERP.Node.Memory
import UniDERP.Config.Config
import UniDERP.Config.Args
import UniDERP.Config.Yaml
import UniDERP.Daemon.Reload
import UniDERP.Daemon.Register
