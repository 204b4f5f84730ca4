import QuorumRelay.Bytes
import QuorumRelay.Amount

/-!
# Outbound messages

A message that leaves is recorded under its nonce and never removed.  It is
queued, may be marked as picked up, and ends confirmed or failed; only an open
message, queued or picked up, can end.
-/

namespace QuorumRelay

/-- Where an outbound message stands. -/
inductive MessageStatus where
  | queued
  | relayed
  | confirmed
  | failed
  deriving DecidableEq

/-- The name under which a status is reported. -/
def MessageStatus.name : MessageStatus → String
  | queued => "Queued"
  | relayed => "Relayed"
  | confirmed => "Confirmed"
  | failed => "Failed"

/-- A message that still may end either way. -/
def MessageStatus.isOpen : MessageStatus → Bool
  | queued => true
  | relayed => true
  | confirmed => false
  | failed => false

/-- Who paid a message's relay fee. -/
inductive FeePayer where
  | sender
  | sponsor (owner : Key)
  deriving DecidableEq

/-- A message that leaves for a remote chain. -/
structure OutboundMessage where
  nonce : Nonce := 0
  destinationChain : ChainId := 0
  sender : Key := .zero
  destination : Address := .zero
  payload : List UInt8 := []
  /-- Lamports locked in the vault while the message is open. -/
  value : Amount := 0
  computeBudget : UInt64 := 0
  fee : Amount := 0
  feePayer : FeePayer := .sender
  /-- Slot at which the message was queued. -/
  createdAt : Slot := 0
  status : MessageStatus := .queued
  bump : UInt8 := 0
  deriving DecidableEq

namespace OutboundMessage

/-- A relayer's notice that it picked the message up. -/
def markRelayed : Action OutboundMessage Unit := do
  let m ← get
  require (m.status = .queued) .invalidStatusTransition
  set { m with status := .relayed }

/-- The message was delivered. -/
def confirm : Action OutboundMessage Unit := do
  let m ← get
  require (m.status.isOpen = true) .invalidStatusTransition
  set { m with status := .confirmed }

/-- Time out an open message and tell the value owed to its sender.  A pickup
notice does not stop the clock. -/
def reclaim (caller : Key) (now reclaimAfter : Slot) : Action OutboundMessage Amount := do
  let m ← get
  require (m.sender = caller) .notMessageSender
  require (m.status.isOpen = true) .invalidStatusTransition
  require (m.createdAt.later reclaimAfter ≤ now) .reclaimTooEarly
  set { m with status := .failed }
  return m.value

end OutboundMessage

end QuorumRelay
