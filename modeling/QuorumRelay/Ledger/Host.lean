import QuorumRelay.Ledger.Account

/-!
# What the host does with lamports

Accounts are created with the lamports that keep them free of rent, and lamports
move in two ways: the system program moves those of wallets, and a program moves
those of the accounts it owns.
-/

namespace QuorumRelay

/-- Lamports that keep an account of a given size free of rent. -/
def rentMinimum (size : Nat) : Amount :=
  UInt64.ofNat ((128 + size) * 6960)

/-- Most bytes by which an account can grow within one instruction. -/
def maxGrowth : Nat := 10240

namespace Ledger

/-- Lamports that a program may take out of an account it owns. -/
def spendable (l : Ledger) (id : AccountId) : Amount :=
  Amount.monus (l.account id).lamports (rentMinimum (l.account id).data.length)

/-- Move lamports through the system program. -/
def transfer (source target : AccountId) (amount : Amount) : Action Ledger Unit := do
  let l ← get
  if (l.account source).lamports < amount then throw (.host (.custom 1))
  let l := l.setLamports source ((l.account source).lamports - amount)
  let credited := (l.account target).lamports.toNat + amount.toNat
  if UInt64.size ≤ credited then throw (.host .arithmeticOverflow)
  set (l.setLamports target (UInt64.ofNat credited))

/-- Pay into an account; paying nothing does nothing. -/
def deposit (source target : AccountId) (amount : Amount) : Action Ledger Unit := do
  if amount = 0 then return
  transfer source target amount

/-- Pay out of an account that the bridge program owns, down to its rent minimum.
Paying nothing does nothing. -/
def withdraw (source target : AccountId) (amount : Amount) : Action Ledger Unit := do
  if amount = 0 then return
  let l ← get
  require (amount ≤ l.spendable source) .insufficientLiquidity
  let credited ← (l.account target).lamports.plus amount
  let l := l.setLamports source ((l.account source).lamports - amount)
  set (l.setLamports target credited)

/-- Space and an owner are given only to an account that has neither yet. -/
def checkUnused (a : Account) : Except Fault Unit :=
  if a.owner = .systemProgram ∧ a.data = [] then .ok () else .error (.host (.custom 0))

/-- Give an account zero-filled space and hand it to the bridge program. -/
def allocate (id : AccountId) (size : Nat) : Action Ledger Unit := do
  let l ← get
  if maxGrowth < size then throw (.host .invalidResize)
  set (l.put id { l.account id with data := List.replicate size 0, owner := .bridgeProgram })

/-- Create an account of the bridge program.  The payer makes up what is missing
to the rent minimum; an account that is in use already is refused.  An account
without lamports is looked at before it is paid for, one with lamports after, and
such a one cannot pay for itself. -/
def create (payer id : AccountId) (size : Nat) : Action Ledger Unit := do
  let a := (← get).account id
  if a.lamports = 0 then
    checkUnused a
    transfer payer id (rentMinimum size)
  else
    if payer = id then throw (.access .payerIsTarget)
    deposit payer id (Amount.monus (rentMinimum size) a.lamports)
    checkUnused ((← get).account id)
  allocate id size

end Ledger

end QuorumRelay
