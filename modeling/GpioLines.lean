import GpioLines.Bench.Session
import GpioLines.Text.Masked
import GpioLines.Proofs.Lease
import GpioLines.Proofs.Ledger
import GpioLines.Proofs.Soundness
import GpioLines.Proofs.Move
import GpioLines.Proofs.Groups
import GpioLines.Proofs.Operations
import GpioLines.Proofs.Taking
import GpioLines.Proofs.Returning
import GpioLines.Proofs.Evolution
import GpioLines.Proofs.Client
import GpioLines.Proofs.Lifetimes
import GpioLines.Proofs.Reachability
import GpioLines.Proofs.Representation
import GpioLines.Proofs.Protocol
import GpioLines.Proofs.Atomicity
import GpioLines.Proofs.Crew
import GpioLines.Proofs.Interference
import GpioLines.Proofs.Conduct
import GpioLines.Proofs.Completion
import GpioLines.Proofs.Contention
import GpioLines.Proofs.Contest
import GpioLines.Proofs.Bystanders
import GpioLines.Proofs.Ownership
import GpioLines.Proofs.Solo
import GpioLines.Proofs.Board
import GpioLines.Proofs.SimulatedLines
import GpioLines.Proofs.Exclusivity
import GpioLines.Proofs.Devices
import GpioLines.Proofs.Lending
import GpioLines.Proofs.Deal
import GpioLines.Proofs.Dealings
import GpioLines.Proofs.Accord
import GpioLines.Proofs.Framing
import GpioLines.Proofs.Workshop
import GpioLines.Proofs.Deeds
import GpioLines.Proofs.Sharing
import GpioLines.Proofs.GroupOrder
import GpioLines.Proofs.ReadBack
import GpioLines.Proofs.Agreement
import GpioLines.Proofs.Freshness
import GpioLines.Proofs.Replay
import GpioLines.Proofs.Rollback
import GpioLines.Proofs.Closing
import GpioLines.Proofs.Finality
import GpioLines.Proofs.Records
import GpioLines.Proofs.OpenFiles
import GpioLines.Proofs.Feed
import GpioLines.Proofs.Sealed
import GpioLines.Proofs.Listening
import GpioLines.Proofs.Subscribing
import GpioLines.Proofs.Reception
import GpioLines.Proofs.Timekeeping
import GpioLines.Proofs.Attention
import GpioLines.Proofs.Delivery
import GpioLines.Proofs.Reconfiguring
import GpioLines.Proofs.Confinement
import GpioLines.Proofs.Containment
import GpioLines.Proofs.Polarity
import GpioLines.Proofs.Piecemeal
import GpioLines.Proofs.Renumbering
import GpioLines.Proofs.Mirroring
import GpioLines.Proofs.Lookups
import GpioLines.Proofs.Locality
import GpioLines.Proofs.Apart
import GpioLines.Proofs.Exchange
import GpioLines.Proofs.Independence
import GpioLines.Proofs.Utf8
import GpioLines.Proofs.Fields
import GpioLines.Proofs.Labels
import GpioLines.Proofs.Gathering
import GpioLines.Proofs.Descriptors
import GpioLines.Proofs.Shelf
import GpioLines.Proofs.Marks
import GpioLines.Proofs.Hogging
import GpioLines.Proofs.Hosting
import GpioLines.Proofs.Transparency
import GpioLines.Proofs.Fetching
import GpioLines.Proofs.Whereabouts
import GpioLines.Proofs.Granting
import GpioLines.Proofs.Admission
import GpioLines.Proofs.Strict
import GpioLines.Proofs.Service
import GpioLines.Proofs.Coherence
import GpioLines.Proofs.Indexing
import GpioLines.Proofs.Wholeness
import GpioLines.Proofs.Queues
import GpioLines.Proofs.Batches
import GpioLines.Proofs.Sockets
import GpioLines.Proofs.Tokens
import GpioLines.Proofs.Waiting
import GpioLines.Proofs.Vigil
import GpioLines.Proofs.Histories
import GpioLines.Proofs.Recollection
import GpioLines.Proofs.Switching
import GpioLines.Proofs.Consumers
import GpioLines.Proofs.Refreshing
import GpioLines.Proofs.Setups
import GpioLines.Proofs.Metadata
