import QuorumRelay.RateWindow

/-!
# Remote chains

The registry keeps one record for each remote chain: the limits its governor
chose, whether traffic is paused, and the rate windows of both directions.
-/

namespace QuorumRelay

/-- Largest payload that any chain may allow. -/
def maxPayloadBytes : Nat := 1024

/-- What the governor chooses for a chain. -/
structure Chain.Limits where
  /-- Blocks of the remote chain that a relayer waits before it attests. -/
  confirmations : UInt32 := 0
  maxMessageBytes : UInt32 := 0
  maxComputeBudget : UInt64 := 0
  /-- Fee multiplier in basis points. -/
  feeMultiplier : UInt32 := 0
  /-- Messages admitted in each direction in each epoch. -/
  rateLimit : UInt32 := 0
  /-- Nonces of one sender have to grow. -/
  strictOrdering : Bool := false
  deriving DecidableEq

/-- The registry entry of a remote chain; identifier 0 marks one not yet configured. -/
structure Chain where
  id : ChainId := 0
  limits : Chain.Limits := {}
  /-- A paused chain takes neither outbound nor inbound messages. -/
  active : Bool := false
  outbound : RateWindow := {}
  inbound : RateWindow := {}
  /-- Highest source nonce processed from this chain. -/
  highestInbound : Nonce := 0
  bump : UInt8 := 0
  deriving DecidableEq

namespace Chain

/-- Limits have to let some message pass, and none above the overall maximum. -/
def Limits.check (l : Limits) : Except Fault Unit := do
  require (1 ≤ l.confirmations) .invalidChainConfig
  require (0 < l.maxMessageBytes ∧ l.maxMessageBytes.toNat ≤ maxPayloadBytes) .invalidChainConfig
  require (0 < l.feeMultiplier) .invalidChainConfig
  require (0 < l.rateLimit) .invalidChainConfig

/-- Create the entry or replace its limits.  Windows and the highest nonce
survive; a new entry starts active. -/
def configure (id : ChainId) (limits : Limits) : Action Chain Unit := do
  require (0 < id) .invalidChainConfig
  limits.check
  let c ← get
  set { c with id, limits, active := c.active || c.id == 0 }

/-- Refuse traffic with a paused chain. -/
def checkActive (c : Chain) : Except Fault Unit :=
  require (c.active = true) .chainPaused

/-- The limits on one message, the same in both directions. -/
def checkLimits (c : Chain) (size : Nat) (budget : UInt64) : Except Fault Unit := do
  require (size ≤ c.limits.maxMessageBytes.toNat) .messageTooLarge
  require (budget ≤ c.limits.maxComputeBudget) .computeBudgetExceeded

/-- The outbound window after one more message. -/
def acceptOutbound (c : Chain) (now epochLength : Slot) : Except Fault RateWindow :=
  c.outbound.accept now epochLength c.limits.rateLimit 1

/-- The inbound window after `count` more messages. -/
def acceptInbound (c : Chain) (now epochLength : Slot) (count : UInt32) :
    Except Fault RateWindow :=
  c.inbound.accept now epochLength c.limits.rateLimit count

/-- Keep the highest nonce seen. -/
def recordInboundNonce (nonce : Nonce) (c : Chain) : Chain :=
  if c.highestInbound < nonce then { c with highestInbound := nonce } else c

end Chain

end QuorumRelay
