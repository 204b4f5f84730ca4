import QuorumRelay.Governance
import QuorumRelay.Roster

/-!
# Joining, leaving and being paid

A relayer joins with a stake on the governor's word.  It leaves by itself or is
removed by the governor, and takes its stake with it and as much of its earnings
as the pool still covers; what the pool cannot cover is lost to it.
-/

namespace QuorumRelay

/-- The two records that membership changes. -/
structure Membership where
  bridge : Bridge
  roster : Roster
  deriving DecidableEq

/-- A relayer that left, and what it is owed. -/
structure Departure where
  index : UInt8
  entry : Relayer
  payout : Amount
  deriving DecidableEq

namespace Membership

/-- A step on the bridge record alone. -/
def onBridge {α : Type} (step : Action Bridge α) : Action Membership α :=
  step.on Membership.bridge fun bridge m => { m with bridge }

/-- A step on the roster alone. -/
def onRoster {α : Type} (step : Action Roster α) : Action Membership α :=
  step.on Membership.roster fun roster m => { m with roster }

/-- Admit a relayer with a stake. -/
def register (council : Council) (actor : Key) (minimumStake : Amount) (owner publicKey : Key)
    (stake : Amount) (now : Slot) : Action Roster UInt8 := do
  council.check actor
  Roster.register owner publicKey stake minimumStake now

/-- Choose the number of signatures that a quorum needs. -/
def updateThreshold (council : Council) (actor : Key) (required : UInt8) :
    Action Roster Unit := do
  council.check actor
  Roster.setThreshold required

/-- Pay a departing relayer's earnings out of the pool, as far as it goes. -/
def settle (index : UInt8) (entry : Relayer) : Action Bridge Departure := do
  let b ← get
  let earnings := min entry.earned b.pool
  Bridge.payCompensation earnings
  let payout ← entry.stake.plus earnings
  return ⟨index, entry, payout⟩

/-- A relayer leaves. -/
def unregister (index : UInt8) (caller : Key) : Action Membership Departure := do
  let entry ← onRoster (Roster.unregister index caller)
  onBridge (settle index entry)

/-- The governor removes a relayer. -/
def remove (actor : Key) (index : UInt8) : Action Membership Departure := do
  (← get).bridge.council.check actor
  let entry ← onRoster (Roster.remove index)
  onBridge (settle index entry)

/-- A relayer claims some of what it earned, as far as the pool goes. -/
def claim (index : UInt8) (caller : Key) (amount : Amount) : Action Membership Unit := do
  require (amount ≤ (← get).bridge.pool) .insufficientPoolBalance
  onRoster (Roster.debitEarnings index caller amount)
  onBridge (Bridge.payCompensation amount)

end Membership

end QuorumRelay
