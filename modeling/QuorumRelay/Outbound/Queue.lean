import QuorumRelay.Bridge
import QuorumRelay.Chain
import QuorumRelay.Digest
import QuorumRelay.Outbound.Message
import QuorumRelay.Quorum.Basic
import QuorumRelay.Sponsor

/-!
# Sending and settling outbound messages

A message is queued when its chain takes it and someone pays its fee.  Its value
stays locked until a quorum confirms the delivery or its sender reclaims it.
-/

namespace QuorumRelay

/-- What the sender of a message asks for. -/
structure SendRequest where
  destinationChain : ChainId := 0
  destination : Address := .zero
  payload : List UInt8 := []
  value : Amount := 0
  computeBudget : UInt64 := 0
  /-- The highest fee the sender accepts. -/
  maxFee : Amount := 0
  deriving DecidableEq

/-- The destination as an entry of a sponsor's list. -/
def SendRequest.target (q : SendRequest) : Sponsor.Target where
  chain := q.destinationChain
  address := q.destination

/-- The fee of a message to a chain. -/
def Bridge.estimateFee (b : Bridge) (c : Chain) (size : Nat) (budget : UInt64) :
    Except Fault Amount :=
  b.fees.estimate c.limits.feeMultiplier size budget

/-- The records that queueing a message changes.  Without a sponsor the sender pays. -/
structure Outbox where
  bridge : Bridge
  chain : Chain
  sponsor : Option Sponsor
  deriving DecidableEq

namespace Outbox

/-- A step on the bridge record alone. -/
def onBridge {α : Type} (step : Action Bridge α) : Action Outbox α :=
  step.on Outbox.bridge fun bridge o => { o with bridge }

/-- Charge the sponsor, if there is one, and tell who paid. -/
def charge (target : Sponsor.Target) (fee : Amount) : Action Outbox FeePayer := do
  match (← get).sponsor with
  | none => return .sender
  | some sponsor =>
    (Sponsor.spend target fee).on (fun _ => sponsor) fun s o => { o with sponsor := some s }
    return .sponsor sponsor.owner

/-- Queue a message.  The checks come in this order: chain, pause, size, compute
budget, rate limit, fee, sponsor; then the books, the window and the sponsor's
balance are written. -/
def queue (sender : Key) (q : SendRequest) (now : Slot) : Action Outbox OutboundMessage := do
  let o ← get
  require (o.chain.id = q.destinationChain) .chainMismatch
  o.chain.checkActive
  o.chain.checkLimits q.payload.length q.computeBudget
  let window ← o.chain.acceptOutbound now o.bridge.epochLength
  let fee ← o.bridge.estimateFee o.chain q.payload.length q.computeBudget
  require (fee ≤ q.maxFee) .insufficientFee
  match o.sponsor with
  | none => pure ()
  | some sponsor => sponsor.checkCanPay q.target fee
  let nonce ← onBridge (Bridge.recordSend fee q.value o.sponsor.isSome)
  modify fun o => { o with chain := { o.chain with outbound := window } }
  let feePayer ← charge q.target fee
  return {
    nonce, sender, fee, feePayer
    destinationChain := q.destinationChain
    destination := q.destination
    payload := q.payload
    value := q.value
    computeBudget := q.computeBudget
    createdAt := now }

end Outbox

/-- A registered relayer reports that it picked the message up. -/
def OutboundMessage.pickUp (roster : Roster) (caller : Key) : Action OutboundMessage Unit := do
  require ((roster.indexOfOwner caller).isSome = true) .unknownRelayer
  OutboundMessage.markRelayed

/-- The records that settling a message changes. -/
structure Settlement where
  bridge : Bridge
  message : OutboundMessage
  deriving DecidableEq

namespace Settlement

/-- A step on the bridge record alone. -/
def onBridge {α : Type} (step : Action Bridge α) : Action Settlement α :=
  step.on Settlement.bridge fun bridge s => { s with bridge }

/-- A step on the message alone. -/
def onMessage {α : Type} (step : Action OutboundMessage α) : Action Settlement α :=
  step.on Settlement.message fun message s => { s with message }

/-- The digest that confirms the delivery of the message. -/
def confirmationDigest (s : Settlement) : Digest :=
  Digest.ofConfirmation s.bridge.hostChain s.bridge.identity s.message.destinationChain
    s.message.nonce

/-- Close a message whose delivery a quorum confirms. -/
def confirm (roster : Roster) (attestations : List Attestation) (verify : Verifier) :
    Action Settlement Digest := do
  let s ← get
  let digest := s.confirmationDigest
  let _ ← Quorum.check roster digest attestations verify
  onMessage OutboundMessage.confirm
  onBridge (Bridge.releaseValue s.message.value)
  return digest

/-- Close a message that was not delivered in time, and tell the value owed to its
sender.  The fee is not returned and the nonce stays used. -/
def reclaim (caller : Key) (now : Slot) : Action Settlement Amount := do
  let s ← get
  let value ← onMessage (OutboundMessage.reclaim caller now s.bridge.reclaimAfter)
  onBridge (Bridge.releaseValue value)
  return value

end Settlement

end QuorumRelay
