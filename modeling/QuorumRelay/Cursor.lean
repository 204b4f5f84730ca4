import QuorumRelay.Bytes
import QuorumRelay.Amount

/-!
# Sender cursors

On a chain with strict ordering the messages of one sender are executed in the
order of their nonces.  A cursor holds the last nonce executed.
-/

namespace QuorumRelay

/-- The last nonce executed for one sender on one chain. -/
structure Cursor where
  sourceChain : ChainId := 0
  /-- Hash of the sender's address. -/
  senderKey : Digest := .zero
  /-- None until the first message lands. -/
  lastNonce : Option Nonce := none
  bump : UInt8 := 0
  deriving DecidableEq

namespace Cursor

/-- The cursor has to be the one of the message's chain and sender. -/
def checkMatches (c : Cursor) (sourceChain : ChainId) (senderKey : Digest) : Except Fault Unit :=
  require (c.sourceChain = sourceChain ∧ c.senderKey = senderKey) .senderCursorMismatch

/-- A nonce has to exceed the last one. -/
def checkNonce (c : Cursor) (nonce : Nonce) : Except Fault Unit :=
  match c.lastNonce with
  | none => pure ()
  | some last => require (last < nonce) .outOfOrder

/-- Move on to a nonce. -/
def advance (nonce : Nonce) (c : Cursor) : Cursor :=
  { c with lastNonce := some nonce }

end Cursor

end QuorumRelay
