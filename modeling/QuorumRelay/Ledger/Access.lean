import QuorumRelay.Ledger.Machine
import QuorumRelay.Record

/-!
# Taking and checking accounts

An instruction takes the accounts it was handed one after the other, each as what
its field asks for; then it creates those that are to be created, and last it
checks where the others sit and what they may be used for.  The first thing that
is wrong is the answer.  A record that was taken is written back at the end, into
the bytes it came from.
-/

namespace QuorumRelay

/-- A record that was taken from an account for one field. -/
structure Held (α : Type) where
  field : String
  account : Passed
  value : α

/-- The name of the account that a record was taken from. -/
def Held.id {α : Type} (h : Held α) : AccountId := h.account.id

/-- The record in an account. -/
def Record.load {α : Type} (r : Record α) (a : Account) : Except AccessFault α :=
  if a.owner = .systemProgram ∧ a.lamports = 0 then .error .notInitialized
  else if a.owner ≠ .bridgeProgram then .error .wrongOwner
  else r.read a.data

/-- The data of an account after a record was written over its start, if it fits. -/
def Record.store? {α : Type} (r : Record α) (value : α) (data : List UInt8) :
    Option (List UInt8) :=
  let written := r.write value
  if written.length ≤ data.length then some (written ++ data.drop written.length) else none

namespace Exec

variable {α : Type}

/-! ## Taking -/

/-- The account that was handed over under a name. -/
def account (id : AccountId) : Exec Account := do
  return (← get).ledger.account id

/-- The next account, if any is left. -/
def next? : Exec (Option Passed) := do
  match (← get).remaining with
  | [] => return none
  | p :: remaining =>
    modify fun m => { m with remaining }
    return some p

/-- The next account, whatever it is. -/
def take (field : String) : Exec Passed := do
  match ← next? with
  | some p => return p
  | none => failAt field .missingAccount

/-- The next account, which is to be created; its lack is not blamed on its field. -/
def takeFresh : Exec Passed := do
  match ← next? with
  | some p => return p
  | none => fail (.access .missingAccount)

/-- A record of the given kind. -/
def takeRecord (field : String) (r : Record α) : Exec (Held α) := do
  let account ← take field
  let value ← checkAt field (r.load (← Exec.account account.id))
  return { field, account, value }

/-- A record of the given kind, or none; the bridge program's own account stands for none. -/
def takeOptional (field : String) (r : Record α) : Exec (Option (Held α)) := do
  let account ← take field
  if account.id = .bridgeProgram then return none
  let value ← checkAt field (r.load (← Exec.account account.id))
  return some { field, account, value }

/-- An account that signed. -/
def takeSigner (field : String) : Exec Passed := do
  let p ← take field
  unless p.signer do failAt field .notSigner
  return p

/-- The system program. -/
def takeSystemProgram (field : String) : Exec Unit := do
  let p ← take field
  unless p.id = .systemProgram do failAt field .wrongProgram

/-! ## Checking -/

/-- The account has to be the one that its seeds describe. -/
def checkSeeds (field : String) (p : Passed) (id : AccountId) : Exec Unit :=
  unless p.id = id do failAt field .wrongSeeds

/-- The account has to be handed over for writing. -/
def checkWritable (field : String) (p : Passed) : Exec Unit :=
  unless p.writable do failAt field .notWritable

/-- The account has to be the given one. -/
def checkAddress (field : String) (p : Passed) (id : AccountId) : Exec Unit :=
  unless p.id = id do failAt field .wrongAddress

/-! ## Creating -/

/-- Create an account and take its blank record. -/
def create (field : String) (r : Record α) (p : Passed) (payer : Passed) (size : Nat) :
    Exec (Held α) := do
  onLedger (Ledger.create payer.id p.id size)
  return { field, account := p, value := r.blank }

/-- An account that has to be created, at the place its seeds describe. -/
def init (field : String) (r : Record α) (p : Passed) (id : AccountId) (payer : Passed)
    (size : Nat) : Exec (Held α) := do
  checkSeeds field p id
  let h ← create field r p payer size
  checkWritable field p
  return h

/-- An account that is created unless it exists; one that exists has to be of the
right kind, size and rent. -/
def initIfNeeded (field : String) (r : Record α) (p : Passed) (id : AccountId) (payer : Passed) :
    Exec (Held α) := do
  checkSeeds field p id
  let a ← account p.id
  let h ← if a.owner = .systemProgram then create field r p payer r.size else do
    let value ← checkAt field (r.load a)
    unless a.data.length = r.size do failAt field .wrongSpace
    if a.lamports < rentMinimum r.size then failAt field .notRentExempt
    pure { field, account := p, value }
  checkWritable field p
  return h

/-! ## Writing back -/

/-- Write a record over the start of an account's data. -/
def save (r : Record α) (id : AccountId) (value : α) (failure : Failure) : Exec Unit := do
  let a ← account id
  match r.store? value a.data with
  | some data => modify fun m => { m with ledger := m.ledger.put id { a with data } }
  | none => throw failure

end Exec

namespace Held

variable {α : Type}

/-- The record has to sit where its seeds describe. -/
def checkSeeds (h : Held α) (id : AccountId) : Exec Unit :=
  Exec.checkSeeds h.field h.account id

/-- The record's account has to be handed over for writing. -/
def checkWritable (h : Held α) : Exec Unit :=
  Exec.checkWritable h.field h.account

/-- Write a record back into the account it was taken from. -/
def save (h : Held α) (r : Record α) (value : α) : Exec Unit :=
  Exec.save r h.id value { fault := .access .unwritableRecord, field := some h.field }

end Held

end QuorumRelay
