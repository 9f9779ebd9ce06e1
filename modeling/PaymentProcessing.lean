import PaymentProcessing.Backend.PaidOrders
import PaymentProcessing.Segments
import PaymentProcessing.Transition
import PaymentProcessing.Backend.InFlight
import PaymentProcessing.Backend.Duplicates
import PaymentProcessing.Backend.Confirmations
import PaymentProcessing.Backend.StatusChanges
import PaymentProcessing.Backend.Evidence
import PaymentProcessing.Backend.Authenticity
import PaymentProcessing.Backend.Refinement
import PaymentProcessing.Backend.FirstHandling
import PaymentProcessing.Propeller.Channels
import PaymentProcessing.Propeller.Broker
import PaymentProcessing.Propeller.Config
import PaymentProcessing.Propeller.Push
import PaymentProcessing.Propeller.PushMoves
import PaymentProcessing.Propeller.Deliveries
import PaymentProcessing.Propeller.Isolation
import PaymentProcessing.Propeller.Addressing
import PaymentProcessing.Propeller.Registry
import PaymentProcessing.Timer
import PaymentProcessing.Propeller.WsHandler
import PaymentProcessing.Propeller.Keepalive
import PaymentProcessing.Hmac
import PaymentProcessing.Propeller.Auth
import PaymentProcessing.Propeller.Jwt
import PaymentProcessing.Propeller.GrpcHandler
import PaymentProcessing.Propeller.Publishing
import PaymentProcessing.Backend.Charges
import PaymentProcessing.Backend.Identifiers
import PaymentProcessing.Propeller.Eavesdropping
import PaymentProcessing.Propeller.Presence
import PaymentProcessing.Propeller.Handlers
import PaymentProcessing.Propeller.Lifecycle
import PaymentProcessing.Propeller.TopicSets
import PaymentProcessing.Propeller.TopicRefinement
import PaymentProcessing.Propeller.PubSub
import PaymentProcessing.Propeller.Ordering
import PaymentProcessing.Propeller.Tasks
import PaymentProcessing.Propeller.Zombies
import PaymentProcessing.Backend.Consumer
import PaymentProcessing.Backend.Settlements
import PaymentProcessing.Backend.Amounts
import PaymentProcessing.Backend.AuditTrail
import PaymentProcessing.Backend.Interruptions
import PaymentProcessing.Backend.Verdicts
import PaymentProcessing.Backend.Ahead
import PaymentProcessing.Backend.Passes
import PaymentProcessing.Backend.Serial
import PaymentProcessing.Propeller.Fidelity
import PaymentProcessing.Propeller.Fates
import PaymentProcessing.Propeller.Withdrawals
import PaymentProcessing.Propeller.Conservation
import PaymentProcessing.Propeller.Census
import PaymentProcessing.Propeller.Threads
import PaymentProcessing.Propeller.Settling
import PaymentProcessing.Propeller.Headcount
import PaymentProcessing.Propeller.Acceptance
import PaymentProcessing.Propeller.FrontEnds
import PaymentProcessing.Backend.Deduplication
import PaymentProcessing.Backend.Checkouts
import PaymentProcessing.Backend.Progress
import PaymentProcessing.Backend.Realtime
import PaymentProcessing.JsonText
import PaymentProcessing.Propeller.EventFrames
import PaymentProcessing.Propeller.GrpcKeepalive
import PaymentProcessing.Propeller.OnlineFlag
import PaymentProcessing.Propeller.Signatures
import PaymentProcessing.Propeller.Downgrade
import PaymentProcessing.Propeller.Batches
import PaymentProcessing.Propeller.Guards
import PaymentProcessing.Propeller.Subscribing
import PaymentProcessing.Backend.Expiries
import PaymentProcessing.Backend.Draining
import PaymentProcessing.Propeller.Brokerage
import PaymentProcessing.Propeller.Endings
import PaymentProcessing.Propeller.Sockets
import PaymentProcessing.Propeller.Streams
import PaymentProcessing.Propeller.Silence
import PaymentProcessing.Backend.Relay
import PaymentProcessing.Backend.Replays
import PaymentProcessing.Propeller.Gatekeeping
import PaymentProcessing.Propeller.Metrics
import PaymentProcessing.Backend.Polling
