import QuorumRelay.Bytes
import QuorumRelay.Amount

/-!
# Sponsors

A sponsor prepays relay fees for messages to destinations on its list.  The list
is a set of at most sixteen destinations; its order means nothing.
-/

namespace QuorumRelay

/-- Most destinations a sponsor can list. -/
def maxSponsoredTargets : Nat := 16

/-- A destination: an address on a chain. -/
structure Sponsor.Target where
  chain : ChainId := 0
  address : Address := .zero
  deriving DecidableEq

/-- A sponsor's prepaid balance and destinations. -/
structure Sponsor where
  owner : Key := .zero
  /-- Lamports held in the vault on the sponsor's behalf. -/
  balance : Amount := 0
  targets : List Sponsor.Target := []
  bump : UInt8 := 0
  deriving DecidableEq

namespace Sponsor

/-- Remove an entry by moving the last one into its place. -/
def withoutAt (targets : List Target) (index : Nat) : List Target :=
  match targets.getLast? with
  | none => targets
  | some last => (targets.set index last).dropLast

/-- Add a destination or remove it; doing either twice changes nothing more. -/
def setTarget (target : Target) (allowed : Bool) : Action Sponsor Unit := do
  let s ← get
  match s.targets.findIdx? (· = target), allowed with
  | none, true =>
    require (s.targets.length < maxSponsoredTargets) .tooManySponsoredTargets
    set { s with targets := s.targets ++ [target] }
  | some index, false => set { s with targets := withoutAt s.targets index }
  | _, _ => pure ()

/-- Add to the balance. -/
def deposit (amount : Amount) : Action Sponsor Unit := do
  let s ← get
  require (0 < amount) .invalidAmount
  let balance ← s.balance.plus amount
  set { s with balance }

/-- Take from the balance. -/
def withdraw (amount : Amount) : Action Sponsor Unit := do
  let s ← get
  require (0 < amount) .invalidAmount
  require (amount ≤ s.balance) .insufficientSponsorBalance
  set { s with balance := s.balance - amount }

/-- A sponsor pays only for destinations on its list, and within its balance. -/
def checkCanPay (s : Sponsor) (target : Target) (fee : Amount) : Except Fault Unit := do
  require (target ∈ s.targets) .targetNotSponsored
  require (fee ≤ s.balance) .insufficientSponsorBalance

/-- Pay the fee of a message to a listed destination. -/
def spend (target : Target) (fee : Amount) : Action Sponsor Unit := do
  let s ← get
  s.checkCanPay target fee
  set { s with balance := s.balance - fee }

end Sponsor

end QuorumRelay
