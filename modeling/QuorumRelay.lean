import QuorumRelay.Base58
import QuorumRelay.Ledger.Program
import QuorumRelay.Proofs.Accepted
import QuorumRelay.Proofs.AppendOnly
import QuorumRelay.Proofs.Delivered
import QuorumRelay.Proofs.Outbound.Locked
import QuorumRelay.Proofs.Solvency
import QuorumRelay.Registry
import QuorumRelay.Proofs.Preimages
import QuorumRelay.Proofs.Seats
import QuorumRelay.Proofs.Inbound.Rejected
import QuorumRelay.Proofs.Credits
import QuorumRelay.Proofs.Rates
import QuorumRelay.Proofs.Inbound.Singly
import QuorumRelay.Proofs.Fees
import QuorumRelay.Proofs.Atomic
import QuorumRelay.Proofs.Ordered
import QuorumRelay.Proofs.Traffic
import QuorumRelay.Proofs.Governed
import QuorumRelay.Proofs.Custody
import QuorumRelay.Proofs.Canonical
import QuorumRelay.Proofs.FarSide
import QuorumRelay.Proofs.Inbound.Commuting
import QuorumRelay.Proofs.Earnings
import QuorumRelay.Proofs.Inbound.Acceptance
import QuorumRelay.Proofs.Outbound.Acceptance
import QuorumRelay.Proofs.Registered
import QuorumRelay.Proofs.Spaces
import QuorumRelay.Proofs.Probe
import QuorumRelay.Proofs.Tally
import QuorumRelay.Proofs.Layout
import QuorumRelay.Proofs.Proven
import QuorumRelay.Proofs.Inbound.Resubmission
import QuorumRelay.Proofs.Outbound.Chargeable
import QuorumRelay.Proofs.AllowList
import QuorumRelay.Proofs.Members
