import QuorumRelay.Bytes
import QuorumRelay.FeeSchedule

/-!
# The bridge and its books

One record holds who governs the bridge, the identity that goes into every
digest, the next outbound nonce, and the books: what the relayer pool holds,
what was collected and paid out over time, and which part of the vault belongs
to open messages and to sponsors.
-/

namespace QuorumRelay

/-- What the creator of a bridge chooses. -/
structure Bridge.Settings where
  hostChain : ChainId := 0
  fees : FeeSchedule := {}
  epochLength : Slot := 0
  minimumStake : Amount := 0
  reclaimAfter : Slot := 0
  deriving DecidableEq

/-- The bridge's configuration and books. -/
structure Bridge where
  /-- The key that governs the bridge. -/
  authority : Key := .zero
  /-- The chain this bridge lives on, part of every digest. -/
  hostChain : ChainId := 0
  /-- This bridge's address form, part of every digest. -/
  identity : Address := .zero
  nextNonce : Nonce := 0
  fees : FeeSchedule := {}
  /-- Length of a rate window in slots. -/
  epochLength : Slot := 0
  minimumStake : Amount := 0
  /-- Slots after which an unconfirmed message can be reclaimed. -/
  reclaimAfter : Slot := 0
  /-- Collected fees that pay relayers. -/
  pool : Amount := 0
  feesCollected : Amount := 0
  compensationClaimed : Amount := 0
  /-- Value of the open outbound messages. -/
  lockedValue : Amount := 0
  /-- Prepaid fees that belong to sponsors. -/
  sponsorFunds : Amount := 0
  vaultBump : UInt8 := 0
  executorBump : UInt8 := 0
  bump : UInt8 := 0
  deriving DecidableEq

/-- The account that holds the bridge's money; the record itself says nothing. -/
structure Vault where
  bump : UInt8 := 0
  deriving DecidableEq

namespace Bridge

/-- A bridge needs a chain of its own, a window length and a reclaim delay. -/
def Settings.check (s : Settings) : Except Fault Unit := do
  require (0 < s.hostChain) .invalidBridgeParams
  require (0 < s.epochLength) .invalidBridgeParams
  require (0 < s.reclaimAfter) .invalidBridgeParams

/-- A bridge with empty books. -/
def create (authority : Key) (identity : Address) (s : Settings) : Except Fault Bridge := do
  s.check
  return {
    authority, identity
    hostChain := s.hostChain
    fees := s.fees
    epochLength := s.epochLength
    minimumStake := s.minimumStake
    reclaimAfter := s.reclaimAfter }

/-- Hand out the next nonce, move the fee into the pool and lock the value.  A
sponsored fee moves out of the sponsors' funds.  All counters are computed before
the first is written. -/
def recordSend (fee value : Amount) (sponsored : Bool) : Action Bridge Nonce := do
  let b ← get
  let nextNonce ← Amount.plus b.nextNonce 1
  let pool ← Amount.plus b.pool fee
  let feesCollected ← Amount.plus b.feesCollected fee
  let lockedValue ← Amount.plus b.lockedValue value
  let sponsorFunds ← if sponsored then Amount.minus b.sponsorFunds fee else pure b.sponsorFunds
  set { b with nextNonce, pool, feesCollected, lockedValue, sponsorFunds }
  return b.nextNonce

/-- Take a relayer's compensation out of the pool.  The pool is debited before
the running total is known to fit. -/
def payCompensation (amount : Amount) : Action Bridge Unit := do
  let b ← get
  require (amount ≤ b.pool) .insufficientPoolBalance
  set { b with pool := b.pool - amount }
  let compensationClaimed ← Amount.plus b.compensationClaimed amount
  modify fun b => { b with compensationClaimed }

/-- Unlock the value of a message that is no longer open. -/
def releaseValue (value : Amount) : Action Bridge Unit := do
  let b ← get
  let lockedValue ← Amount.minus b.lockedValue value
  set { b with lockedValue }

/-- Count a sponsor's deposit. -/
def holdSponsorFunds (amount : Amount) : Action Bridge Unit := do
  let b ← get
  let sponsorFunds ← Amount.plus b.sponsorFunds amount
  set { b with sponsorFunds }

/-- Count a sponsor's withdrawal. -/
def releaseSponsorFunds (amount : Amount) : Action Bridge Unit := do
  let b ← get
  let sponsorFunds ← Amount.minus b.sponsorFunds amount
  set { b with sponsorFunds }

/-- What the vault owes: the pool, the open messages' value, the sponsors' funds
and the relayers' stakes.  Inbound value is paid only from what lies above. -/
def reserved (b : Bridge) (totalStake : Amount) : Except Fault Amount := do
  let owed ← Amount.plus b.pool b.lockedValue
  let owed ← Amount.plus owed b.sponsorFunds
  Amount.plus owed totalStake

end Bridge

end QuorumRelay
