import QuorumRelay.Amount

/-!
# Relay fees

A message pays a base fee, a fee for each byte and a fee for each compute unit,
scaled by the multiplier of the chain it goes to.  Multipliers are in basis
points: 10000 leaves the fee as it is.
-/

namespace QuorumRelay

/-- The parts of a relay fee, and what a relayer earns for a delivery. -/
structure FeeSchedule where
  base : Amount := 0
  perByte : Amount := 0
  perComputeUnit : Amount := 0
  /-- Earned by a registered relayer for each inbound message it lands. -/
  relayReward : Amount := 0
  deriving DecidableEq

namespace FeeSchedule

/-- Basis points of the multiplier that leaves a fee as it is. -/
def multiplierUnit : UInt32 := 10000

/-- A fee at a multiplier, rounded down.  The product is taken in twice the width of an amount
before it is divided. -/
def scale (raw : Amount) (multiplier : UInt32) : Except Fault Amount := do
  let product := raw.toNat * multiplier.toNat
  require (product < UInt64.size * UInt64.size) .arithmeticOverflow
  Amount.fit (product / multiplierUnit.toNat)

/-- The fee for a payload of `size` bytes and a compute budget.  The unscaled
fee has to fit as well as the scaled one. -/
def estimate (fees : FeeSchedule) (multiplier : UInt32) (size : Nat) (budget : UInt64) :
    Except Fault Amount := do
  let sizeFee ← fees.perByte.times size
  let computeFee ← fees.perComputeUnit.times budget.toNat
  let raw ← fees.base.plus sizeFee
  let raw ← raw.plus computeFee
  scale raw multiplier

end FeeSchedule

end QuorumRelay
