import QuorumRelay.Amount
import QuorumRelay.Hash.Sha256
import QuorumRelay.Quorum.Evidence

/-!
# Accounts and the ledger

The ledger holds accounts: lamports, data, and the program that owns them.
Accounts that belong to no key pair are derived from a program and a seed; here
a derived account is named by what it is derived from, so two of them are one
account exactly when their seeds are the same, and checking that an account sits
at the right derived place is comparing names.
-/

namespace QuorumRelay

/-- The key of the bridge program. -/
def bridgeProgramKey : Key :=
  .ofNat 32 0xcd7b91a96c60100faecbc084601cabfcb6c5fb7df3313363841c78239b9c4a9a

/-- Names of accounts. -/
inductive AccountId where
  /-- An account with a key of its own: a wallet, or a destination program. -/
  | keyed (key : Key)
  /-- The host's own program, which owns wallets and creates accounts. -/
  | systemProgram
  /-- The account with the instructions of the transaction. -/
  | instructionLog
  /-- The bridge program. -/
  | bridgeProgram
  | bridge
  | vault
  | roster
  /-- Signs the calls of destination programs. -/
  | executor
  | chain (id : ChainId)
  | outbound (nonce : Nonce)
  | receipt (digest : Digest)
  | cursor (source : ChainId) (senderKey : Digest)
  | sponsor (owner : Key)
  /-- Where a destination program receives value. -/
  | inbox (program : Key)
  deriving DecidableEq

namespace AccountId

/-- The key of a derived account: a hash of its program and seed. -/
def derivedKey (program : Key) (seed : List UInt8) : Key :=
  sha256 (seed ++ program.toList ++ "ProgramDerivedAddress".toUTF8.toList)

/-- The key of an account of the bridge program that is derived from a word and a rest. -/
def ownKey (word : String) (rest : List UInt8) : Key :=
  derivedKey bridgeProgramKey (word.toUTF8.toList ++ rest)

/-- The key of an account. -/
def key : AccountId → Key
  | keyed key => key
  | systemProgram => .zero
  | instructionLog => instructionLogKey
  | bridgeProgram => bridgeProgramKey
  | bridge => ownKey "bridge" []
  | vault => ownKey "vault" []
  | roster => ownKey "relayers" []
  | executor => ownKey "executor" []
  | chain id => ownKey "chain" (littleEndian 4 id.toNat)
  | outbound nonce => ownKey "outbound" (littleEndian 8 nonce.toNat)
  | receipt digest => ownKey "receipt" digest.toList
  | cursor source senderKey => ownKey "cursor" (littleEndian 4 source.toNat ++ senderKey.toList)
  | sponsor owner => ownKey "sponsor" owner.toList
  | inbox program => derivedKey program "bridge_inbox".toUTF8.toList

end AccountId

/-- The last seed byte of derived accounts, kept in their records. -/
def derivedBump : UInt8 := 255

/-- What the ledger holds under one name; an account never used is empty and
belongs to the system program. -/
structure Account where
  lamports : Amount := 0
  data : List UInt8 := []
  owner : AccountId := .systemProgram
  executable : Bool := false
  deriving DecidableEq

/-- The account of a destination program.  It holds a lamport, so it is never taken
for an account that was not used yet. -/
def Account.ofProgram (executable : Bool) : Account where
  lamports := 1
  executable

/-- All accounts. -/
structure Ledger where
  account : AccountId → Account

namespace Ledger

/-- The ledger on which no account was ever used.  The host's own program and the
bridge program are there from the start. -/
def empty : Ledger where
  account id := { executable := id = .systemProgram || id = .bridgeProgram }

/-- Replace one account. -/
def put (l : Ledger) (id : AccountId) (a : Account) : Ledger :=
  ⟨fun other => if other = id then a else l.account other⟩

@[simp] theorem account_put_self (l : Ledger) (id : AccountId) (a : Account) :
    (l.put id a).account id = a := by
  simp [put]

theorem account_put_of_ne (l : Ledger) {id other : AccountId} (a : Account) (h : other ≠ id) :
    (l.put id a).account other = l.account other := by
  simp [put, h]

/-- Replace the lamports of one account. -/
def setLamports (l : Ledger) (id : AccountId) (lamports : Amount) : Ledger :=
  l.put id { l.account id with lamports }

end Ledger

end QuorumRelay
