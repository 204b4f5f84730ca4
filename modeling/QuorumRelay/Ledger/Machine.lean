import QuorumRelay.Ledger.Event
import QuorumRelay.Ledger.Host
import QuorumRelay.Ledger.Notice

/-!
# The state of a running instruction

While an instruction runs, it works on a ledger, takes accounts from the list it
was handed, and leaves behind events, calls of destination programs and log
lines.  It also keeps account of the deliveries it began and of what it paid for
them; nothing reads that account back.  A failure may name the field of the
accounts it is about.
-/

namespace QuorumRelay

/-- An account as it was handed to an instruction. -/
structure Passed where
  id : AccountId
  signer : Bool := false
  writable : Bool := false
  deriving DecidableEq

/-- An account handed over several times has all its privileges everywhere. -/
def Passed.union (accounts : List Passed) : List Passed :=
  accounts.map fun p => { p with
    signer := accounts.any fun q => q.id = p.id && q.signer
    writable := accounts.any fun q => q.id = p.id && q.writable }

/-- The call of a destination program. -/
structure Call where
  program : AccountId
  /-- The accounts that the call names, with their privileges. -/
  accounts : List Passed
  /-- The accounts that are handed over. -/
  infos : List AccountId
  data : List UInt8
  deriving DecidableEq

/-- How destination programs answer their calls: what they make of the ledger, and
with which code they fail, if they do. -/
structure Destinations where
  answer : Call → Ledger → Ledger × Option UInt32

/-- Programs that leave the ledger alone and always fail alike, if they fail. -/
def Destinations.ofFaults (fault : AccountId → Option UInt32) : Destinations where
  answer call l := (l, fault call.program)

instance : Coe (AccountId → Option UInt32) Destinations := ⟨Destinations.ofFaults⟩

/-- What surrounds an instruction. -/
structure Environment where
  slot : Slot
  /-- The instructions of the transaction up to the running one. -/
  log : InstructionLog
  destinations : Destinations

/-- Lamports paid out of the vault into an inbox. -/
structure Payment where
  inbox : AccountId
  amount : Amount
  deriving DecidableEq

/-- The state of a running instruction. -/
structure Machine where
  ledger : Ledger
  /-- Accounts that were handed over and not yet taken. -/
  remaining : List Passed
  events : List Event := []
  calls : List Call := []
  notices : List Notice := []
  /-- The digests whose delivery was begun, also where it failed. -/
  attempts : List Digest := []
  payments : List Payment := []

/-- Why an instruction failed, and which field of its accounts is to blame, if any. -/
structure Failure where
  fault : Fault
  field : Option String := none
  deriving DecidableEq

/-- A step of a running instruction. -/
abbrev Exec (α : Type) := EStateM Failure Machine α

namespace Exec

variable {σ α : Type}

/-- Write a log line. -/
def note (n : Notice) : Exec Unit :=
  modify fun m => { m with notices := m.notices ++ [n] }

/-- Announce an event. -/
def emit (e : Event) : Exec Unit :=
  modify fun m => { m with events := m.events ++ [e] }

/-- Fail.  A quorum that falls short leaves its count in the log. -/
def fail (f : Fault) : Exec α := do
  match f with
  | .quorumNotMet t => note (.quorumNotMet t)
  | _ => pure ()
  throw { fault := f }

/-- Fail because of one field of the accounts. -/
def failAt (field : String) (f : AccessFault) : Exec α :=
  throw { fault := .access f, field := some field }

/-- Go on with the value of a check. -/
def check (x : Except Fault α) : Exec α :=
  match x with
  | .ok a => pure a
  | .error f => fail f

/-- Go on with the value of a check on one field of the accounts. -/
def checkAt (field : String) (x : Except AccessFault α) : Exec α :=
  match x with
  | .ok a => pure a
  | .error f => failAt field f

/-- Run a step on a record and go on with its result and the changed record. -/
def perform (step : Action σ α) (s : σ) : Exec (α × σ) :=
  match step s with
  | .ok a s => pure (a, s)
  | .error f _ => fail f

/-- Run a step on the ledger. -/
def onLedger (step : Action Ledger α) : Exec α := do
  let (a, ledger) ← perform step (← get).ledger
  modify fun m => { m with ledger }
  return a

end Exec

end QuorumRelay
