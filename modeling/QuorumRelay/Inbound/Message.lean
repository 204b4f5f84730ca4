import QuorumRelay.Bytes
import QuorumRelay.Amount

/-!
# Inbound messages

A message from a remote chain is never stored.  It travels with the attestations
of relayers to the program, which keeps its digest, and on to the destination
program as a delivery.
-/

namespace QuorumRelay

/-- Longest sender address of a remote chain. -/
def maxSenderLength : Nat := 64

/-- A message that arrives from a remote chain. -/
structure InboundMessage where
  sourceChain : ChainId := 0
  sourceNonce : Nonce := 0
  /-- The sender in its own chain's address form. -/
  sender : List UInt8 := []
  /-- The destination program in address form. -/
  destination : Address := .zero
  payload : List UInt8 := []
  /-- Lamports paid from the vault to the destination. -/
  value : Amount := 0
  computeBudget : UInt64 := 0
  deriving DecidableEq

/-- A sender address has between one byte and the longest length. -/
def checkSender (sender : List UInt8) : Except Fault Unit := do
  require (sender ≠ []) .emptySender
  require (sender.length ≤ maxSenderLength) .senderTooLong

/-- The checks on a message's shape, which need no other record. -/
def InboundMessage.check (m : InboundMessage) : Except Fault Unit :=
  checkSender m.sender

/-- One relayer's signature over a digest. -/
structure Attestation where
  /-- The relayer's slot. -/
  index : UInt8 := 0
  signature : Signature := .zero
  deriving DecidableEq

/-- What a destination program is handed. -/
structure Delivery where
  digest : Digest := .zero
  sourceChain : ChainId := 0
  sourceNonce : Nonce := 0
  sender : List UInt8 := []
  value : Amount := 0
  payload : List UInt8 := []
  deriving DecidableEq

/-- The delivery of a message. -/
def InboundMessage.delivery (m : InboundMessage) (digest : Digest) : Delivery where
  digest := digest
  sourceChain := m.sourceChain
  sourceNonce := m.sourceNonce
  sender := m.sender
  value := m.value
  payload := m.payload

end QuorumRelay
