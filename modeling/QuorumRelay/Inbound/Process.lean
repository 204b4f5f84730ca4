import QuorumRelay.Bridge
import QuorumRelay.Chain
import QuorumRelay.Cursor
import QuorumRelay.Digest
import QuorumRelay.Quorum.Basic
import QuorumRelay.Receipt

/-!
# Executing inbound messages

A message is executed once, when a quorum stands behind its digest.  All checks
come first; then the submitter is paid, the digest is marked and the counters
move; the destination is called last, so that a call that fails still uses the
message up.
-/

namespace QuorumRelay

/-- How messages reach their destination, over a world `ω` that deliveries change. -/
structure Executor (ω : Type) where
  /-- Checks on the destination, before anything is written. -/
  prepare : InboundMessage → Except Fault Unit
  /-- The delivery itself; what it did to the world before failing stays. -/
  execute : Digest → InboundMessage → Action ω Unit

namespace Inbound

/-- What a submission is judged by. -/
structure Submission where
  bridge : Bridge
  verify : Verifier
  submitter : Key
  /-- Lamports the vault can pay out as value. -/
  liquidity : Amount
  now : Slot

/-- How a message was executed. -/
structure Outcome where
  digest : Digest
  sourceChain : ChainId
  sourceNonce : Nonce
  /-- Why the delivery failed, if it did. -/
  failure : Option Fault
  /-- Credited to the submitter. -/
  reward : Amount
  deriving DecidableEq

/-- Whether the delivery went through. -/
def Outcome.succeeded (o : Outcome) : Bool := o.failure.isNone

/-- The records that one message changes, and the world outside. -/
structure State (ω : Type) where
  chain : Chain
  roster : Roster
  receipt : Receipt
  cursor : Option Cursor
  world : ω

/-- Credit the submitter for a number of deliveries, if it owns a slot, and tell
how much. -/
def creditSubmitter (s : Submission) (deliveries : Nat) : Action Roster Amount := do
  let reward ← s.bridge.fees.relayReward.times deliveries
  if reward = 0 then return 0
  match (← get).indexOfOwner s.submitter with
  | none => return 0
  | some index =>
    Roster.credit index reward
    return reward

/-- Run a delivery; its failure is a result and not a failure of the step. -/
def deliver {ω : Type} (executor : Executor ω) (digest : Digest) (m : InboundMessage) :
    Action ω (Option Fault) := fun world =>
  match executor.execute digest m world with
  | .ok () world => .ok none world
  | .error e world => .ok (some e) world

namespace State

variable {ω α : Type}

/-- A step on the roster alone. -/
def onRoster (step : Action Roster α) : Action (State ω) α :=
  step.on State.roster fun roster s => { s with roster }

/-- A step on the receipt alone. -/
def onReceipt (step : Action Receipt α) : Action (State ω) α :=
  step.on State.receipt fun receipt s => { s with receipt }

/-- A step on the world alone. -/
def onWorld (step : Action ω α) : Action (State ω) α :=
  step.on State.world fun world s => { s with world }

end State

/-- On a chain with strict ordering a message needs its sender's cursor, and a
nonce beyond it. -/
def checkOrder (chain : Chain) (cursor : Option Cursor) (m : InboundMessage) :
    Except Fault Unit := do
  if chain.limits.strictOrdering then
    match cursor with
    | none => throw (.refused .missingSenderCursor)
    | some c =>
      c.checkMatches m.sourceChain (Digest.ofSender m.sender)
      c.checkNonce m.sourceNonce

/-- Execute one message.  The checks come in this order: shape, replay, chain,
pause, limits, order, rate limit, quorum, liquidity, destination. -/
def process {ω : Type} (s : Submission) (executor : Executor ω) (m : InboundMessage)
    (attestations : List Attestation) : Action (State ω) Outcome := do
  let st ← get
  let digest ← Digest.ofMessage s.bridge.hostChain s.bridge.identity m
  require (st.receipt.contains digest = false) .alreadyProcessed
  require (st.chain.id = m.sourceChain) .chainMismatch
  st.chain.checkActive
  st.chain.checkLimits m.payload.length m.computeBudget
  checkOrder st.chain st.cursor m
  let window ← st.chain.acceptInbound s.now s.bridge.epochLength 1
  let _ ← Quorum.check st.roster digest attestations s.verify
  require (m.value ≤ s.liquidity) .insufficientLiquidity
  executor.prepare m
  let reward ← State.onRoster (creditSubmitter s 1)
  State.onReceipt (Receipt.insert digest)
  modify fun st => { st with
    chain := Chain.recordInboundNonce m.sourceNonce { st.chain with inbound := window }
    cursor := if st.chain.limits.strictOrdering then
        st.cursor.map (Cursor.advance m.sourceNonce)
      else st.cursor }
  let failure ← State.onWorld (deliver executor digest m)
  return { digest, sourceChain := m.sourceChain, sourceNonce := m.sourceNonce, failure, reward }

end Inbound

end QuorumRelay
