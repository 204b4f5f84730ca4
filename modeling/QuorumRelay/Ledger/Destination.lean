import QuorumRelay.Inbound.Process
import QuorumRelay.Ledger.Access

/-!
# Destination programs

A message is delivered by paying its value into the inbox of the destination
program and calling the program, signed by the bridge's executor account.  A call
that fails gives its error back to the bridge; value that was paid stays where it
is.

The mark of the message is written into the account of its receipt before that, so
whatever the call reaches can see that the message is being executed.  A mark that does
not fit is not a failed call: it is a record that cannot be written back.
-/

namespace QuorumRelay

open Codec

/-- Write the mark of a digest into the account of a receipt, over the start of its data. -/
def Ledger.mark (place : AccountId) (receipt : Receipt) (digest : Digest) :
    Action Ledger Unit := do
  let a := (← get).account place
  match Receipt.record.store? (receipt.marked digest) a.data with
  | some data => modify fun l => l.put place { a with data }
  | none => throw (.access .unwritableRecord)

/-- The accounts that one delivery goes through. -/
structure Route where
  program : AccountId
  /-- Whether the program can be called at all. -/
  executable : Bool
  inbox : AccountId
  /-- Accounts that the submitter passes on to the program. -/
  forwarded : List Passed

namespace Route

/-- The tag in front of the data of a delivery. -/
def discriminator : Bytes 8 := discriminatorOf "global:receive_bridge_message"

/-- The call that hands a delivery over: the executor signs, the inbox may be
written, and the forwarded accounts keep their privileges. -/
def call (r : Route) (d : Delivery) : Call where
  program := r.program
  accounts :=
    { id := .executor, signer := true } :: { id := r.inbox, writable := true } :: r.forwarded
  infos := .executor :: r.inbox :: r.forwarded.map Passed.id ++ [r.program]
  data := discriminator.toList ++ Delivery.codec.write d

/-- The program has to be a program, the one the message names, and the inbox its own. -/
def prepare (r : Route) (m : InboundMessage) : Except Fault Unit := do
  require (r.executable = true) .destinationNotExecutable
  require (Address.ofKey r.program.key = m.destination) .destinationMismatch
  require (r.inbox = .inbox r.program.key) .invalidValueInbox

/-- Begin the delivery of a digest. -/
def begin (digest : Digest) : Action Machine Unit :=
  modify fun s => { s with attempts := s.attempts ++ [digest] }

/-- Pay the value into the inbox. -/
def pay (r : Route) (value : Amount) : Action Machine Unit := do
  (Ledger.withdraw .vault r.inbox value).on Machine.ledger fun ledger s => { s with ledger }
  modify fun s => { s with payments := s.payments ++ [⟨r.inbox, value⟩] }

/-- Call the program; what it did to the ledger stays, also where it fails. -/
def invoke (env : Environment) (call : Call) : Action Machine Unit := do
  let s ← get
  let (ledger, fault) := env.destinations.answer call s.ledger
  set { s with ledger, calls := s.calls ++ [call] }
  match fault with
  | none => pure ()
  | some code => throw (.host (.custom code))

/-- Pay the value and call the program. -/
def execute (env : Environment) (r : Route) (digest : Digest) (m : InboundMessage) :
    Action Machine Unit := do
  r.pay m.value
  invoke env (r.call (m.delivery digest))

/-- The route as a way of delivering the message of a receipt, which is marked first. -/
def executor (env : Environment) (r : Route) (place : AccountId) (receipt : Receipt) :
    Executor Machine where
  prepare := r.prepare
  execute digest m := do
    begin digest
    (Ledger.mark place receipt digest).on Machine.ledger fun ledger s => { s with ledger }
    r.execute env digest m

end Route

/-- Whether the delivery failed because the mark could not be written.  Paying and calling fail
for other reasons. -/
def Inbound.Outcome.unmarked (o : Outcome) : Bool :=
  o.failure = some (.access .unwritableRecord)

/-- Lamports that the vault can pay out as value: what it may spend, less what it owes. -/
def Ledger.liquidity (l : Ledger) (b : Bridge) (roster : Roster) : Except Fault Amount := do
  let totalStake ← roster.totalStake
  let reserved ← b.reserved totalStake
  return Amount.monus (l.spendable .vault) reserved

end QuorumRelay
