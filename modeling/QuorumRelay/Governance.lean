import QuorumRelay.Bridge
import QuorumRelay.Chain

/-!
# What the governing key decides

Chains, fees and the governing key itself change on the word of the governing
key.  Who that is may be the key in the bridge record or any other rule, given
here as the set of keys that may act.
-/

namespace QuorumRelay

/-- The keys that may act as governor. -/
abbrev Council := Key → Bool

/-- The council of a bridge is its governing key. -/
def Bridge.council (b : Bridge) : Council := fun actor => b.authority = actor

namespace Council

/-- The council of a list of keys. -/
def ofList (members : List Key) : Council := fun actor => members.contains actor

/-- Refuse everyone but the members. -/
def check (c : Council) (actor : Key) : Except Fault Unit :=
  require (c actor = true) .unauthorizedAuthority

end Council

namespace Governance

/-- Create a chain's entry or replace its limits; an entry keeps its identifier. -/
def configureChain (council : Council) (actor : Key) (id : ChainId) (limits : Chain.Limits) :
    Action Chain Unit := do
  council.check actor
  let c ← get
  require (c.id = 0 ∨ c.id = id) .chainMismatch
  Chain.configure id limits

/-- Pause or resume a chain in both directions. -/
def setChainActive (council : Council) (actor : Key) (active : Bool) : Action Chain Unit := do
  council.check actor
  modify fun c => { c with active }

/-- Replace the fee schedule.  A schedule whose fee for the largest payload alone
does not fit is refused. -/
def setFeeSchedule (actor : Key) (fees : FeeSchedule) : Action Bridge Unit := do
  (← get).council.check actor
  let _ ← fees.estimate FeeSchedule.multiplierUnit maxPayloadBytes 0
  modify fun b => { b with fees }

/-- Hand the governing power to another key and tell whose it was. -/
def setAuthority (actor newAuthority : Key) : Action Bridge Key := do
  let b ← get
  b.council.check actor
  set { b with authority := newAuthority }
  return b.authority

end Governance

end QuorumRelay
