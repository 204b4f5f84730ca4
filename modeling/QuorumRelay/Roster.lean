import QuorumRelay.Bytes
import QuorumRelay.Amount

/-!
# The relayer roster

Relayers sit in numbered slots.  A relayer that leaves empties its slot, so the
numbers of the others stay; the next one to register takes the lowest empty slot.
The roster counts its occupied slots and holds the number of signatures that a
quorum needs, which never exceeds that count.
-/

namespace QuorumRelay

/-- Most slots a roster can have. -/
def maxRelayers : Nat := 32

/-- A registered relayer. -/
structure Relayer where
  /-- The account that staked, and that may leave and claim. -/
  owner : Key := .zero
  /-- The key its attestations verify under. -/
  publicKey : Key := .zero
  stake : Amount := 0
  /-- Rewards credited and not yet claimed. -/
  earned : Amount := 0
  registeredAt : Slot := 0
  deriving DecidableEq

/-- The registered relayers, by slot. -/
structure Roster where
  /-- Signatures that a quorum needs. -/
  required : UInt8 := 0
  /-- Occupied slots. -/
  active : UInt8 := 0
  slots : List (Option Relayer) := []
  bump : UInt8 := 0
  deriving DecidableEq

namespace Roster

/-- The relayers, in the order of their slots. -/
def relayers (r : Roster) : List Relayer :=
  r.slots.filterMap id

/-- The relayer in a slot. -/
def relayer? (r : Roster) (index : UInt8) : Option Relayer :=
  r.slots[index.toNat]?.join

/-- The relayer in a slot that has to be occupied. -/
def relayer (r : Roster) (index : UInt8) : Except Fault Relayer :=
  match r.relayer? index with
  | some found => .ok found
  | none => .error (.refused .unknownRelayer)

/-- Put a relayer into a slot, or empty it. -/
def setSlot (r : Roster) (index : Nat) (entry : Option Relayer) : Roster :=
  { r with slots := r.slots.set index entry }

/-- The lowest slot whose relayer belongs to an owner. -/
def indexOfOwner (r : Roster) (owner : Key) : Option UInt8 :=
  (r.slots.findIdx? fun slot => slot.any fun entry => entry.owner = owner).map UInt8.ofNat

/-- The sum of the stakes. -/
def totalStake (r : Roster) : Except Fault Amount :=
  r.relayers.foldlM (fun total entry => total.plus entry.stake) 0

/-- Only the owner of a slot may speak for it. -/
def checkOwner (r : Roster) (index : UInt8) (caller : Key) : Except Fault Unit := do
  let entry ← r.relayer index
  require (entry.owner = caller) .notRelayerOwner

/-- Put a relayer into the lowest empty slot, or into a new one, and tell which. -/
def place (entry : Relayer) : Action Roster Nat := do
  let r ← get
  match r.slots.findIdx? Option.isNone with
  | some free =>
    set (r.setSlot free (some entry))
    return free
  | none =>
    require (r.slots.length < maxRelayers) .relayerSetFull
    set { r with slots := r.slots ++ [some entry] }
    return r.slots.length

/-- Admit a relayer with enough stake and a key of its own.  The first relayer
sets the quorum to one signature. -/
def register (owner publicKey : Key) (stake minimumStake : Amount) (now : Slot) :
    Action Roster UInt8 := do
  let r ← get
  require (minimumStake ≤ stake) .insufficientStake
  require (¬ r.relayers.any fun entry => entry.publicKey = publicKey) .relayerAlreadyRegistered
  let index ← place { owner, publicKey, stake, registeredAt := now }
  let r ← get
  if r.active = 255 then throw .aborted
  set { r with
    active := r.active + 1
    required := if r.required = 0 then 1 else r.required }
  return UInt8.ofNat index

/-- Empty a slot, unless fewer relayers would remain than a quorum needs. -/
def remove (index : UInt8) : Action Roster Relayer := do
  let r ← get
  let entry ← r.relayer index
  if r.active = 0 then throw .aborted
  require (r.required ≤ r.active - 1) .thresholdTooHigh
  set { r.setSlot index.toNat none with active := r.active - 1 }
  return entry

/-- Empty a slot on its owner's word. -/
def unregister (index : UInt8) (caller : Key) : Action Roster Relayer := do
  (← get).checkOwner index caller
  remove index

/-- Choose the number of signatures that a quorum needs. -/
def setThreshold (required : UInt8) : Action Roster Unit := do
  let r ← get
  require (1 ≤ required) .invalidThreshold
  require (required ≤ r.active) .thresholdTooHigh
  set { r with required }

/-- Add to a relayer's earnings. -/
def credit (index : UInt8) (amount : Amount) : Action Roster Unit := do
  let r ← get
  let entry ← r.relayer index
  let earned ← entry.earned.plus amount
  set (r.setSlot index.toNat (some { entry with earned }))

/-- Take a claim out of a relayer's earnings, on its owner's word. -/
def debitEarnings (index : UInt8) (caller : Key) (amount : Amount) : Action Roster Unit := do
  let r ← get
  require (0 < amount) .invalidAmount
  r.checkOwner index caller
  let entry ← r.relayer index
  require (amount ≤ entry.earned) .insufficientEarnings
  set (r.setSlot index.toNat (some { entry with earned := entry.earned - amount }))

end Roster

end QuorumRelay
