import QuorumRelay.Hash.Keccak
import QuorumRelay.Inbound.Message

/-!
# Digests

Relayers sign digests, and the digest of a message is what makes it the same
message twice.  There are three kinds: of a message, of a batch of message
digests, and of the confirmation that an outbound message was delivered.  Each is
Keccak-256 of a preimage, and the preimages are definitions of their own because
they, not the hashes, can be told apart by inspection.

Integers in a preimage have the big end first, and a value takes 32 bytes.
-/

namespace QuorumRelay
namespace Digest

/-- First byte of the preimage of a message, and a byte of that of a confirmation. -/
def version : UInt8 := 1

/-- Start of the preimage of a batch. -/
def batchTag : List UInt8 := "quorum-bridge/batch".toUTF8.toList

/-- Start of the preimage of a confirmation. -/
def confirmationTag : List UInt8 := "quorum-bridge/confirm".toUTF8.toList

/-- The preimage of a message.  The sender stands behind its length and the
payload is replaced by its hash, so every field has its place. -/
def messagePreimage (hostChain : ChainId) (identity : Address) (m : InboundMessage) :
    List UInt8 :=
  version :: bigEndian 4 hostChain.toNat ++ identity.toList ++
    bigEndian 4 m.sourceChain.toNat ++ bigEndian 8 m.sourceNonce.toNat ++
    UInt8.ofNat m.sender.length :: m.sender ++ m.destination.toList ++
    (keccak256 m.payload).toList ++ bigEndian 32 m.value.toNat ++
    bigEndian 8 m.computeBudget.toNat

/-- The preimage of a batch: how many digests, and the digests. -/
def batchPreimage (digests : List Digest) : List UInt8 :=
  batchTag ++ bigEndian 4 digests.length ++ digests.flatMap Bytes.toList

/-- The preimage of a confirmation. -/
def confirmationPreimage (hostChain : ChainId) (identity : Address) (destinationChain : ChainId)
    (nonce : Nonce) : List UInt8 :=
  confirmationTag ++ version :: bigEndian 4 hostChain.toNat ++ identity.toList ++
    bigEndian 4 destinationChain.toNat ++ bigEndian 8 nonce.toNat

/-- The digest of a message whose shape is right. -/
def ofMessage (hostChain : ChainId) (identity : Address) (m : InboundMessage) :
    Except Fault Digest := do
  m.check
  return keccak256 (messagePreimage hostChain identity m)

/-- The digest of a batch. -/
def ofBatch (digests : List Digest) : Digest :=
  keccak256 (batchPreimage digests)

/-- The digest of a confirmation. -/
def ofConfirmation (hostChain : ChainId) (identity : Address) (destinationChain : ChainId)
    (nonce : Nonce) : Digest :=
  keccak256 (confirmationPreimage hostChain identity destinationChain nonce)

/-- The hash that stands for a sender's address. -/
def ofSender (sender : List UInt8) : Digest :=
  keccak256 sender

/-- The zero digest is no digest. -/
def check (digest : Digest) : Except Fault Unit :=
  require (digest ≠ .zero) .invalidMessageHash

/-- A digest that came with a message has to be the message's own. -/
def verify (supplied : Digest) (hostChain : ChainId) (identity : Address) (m : InboundMessage) :
    Except Fault Digest := do
  check supplied
  let digest ← ofMessage hostChain identity m
  require (supplied = digest) .digestMismatch
  return digest

end Digest

/-- The address form of a key: the last 20 bytes of its hash. -/
def Address.ofKey (key : Key) : Address :=
  (keccak256 key.toList).takeLast 20

end QuorumRelay
