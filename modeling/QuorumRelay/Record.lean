import QuorumRelay.Cursor
import QuorumRelay.Hash.Sha256
import QuorumRelay.Receipt
import QuorumRelay.Wire

/-!
# Stored records

A record in an account stands behind an eight-byte discriminator, the start of
the hash of its kind's name, so that an account of one kind is never read as one
of another.  Each kind knows how many bytes its largest record takes; the space
is reserved when the account is created.
-/

namespace QuorumRelay

/-- The tag that names stand for in front of records and instructions. -/
def discriminatorOf (name : String) : Bytes 8 :=
  (sha256 name.toUTF8.toList).take 8

/-- Bytes of a discriminator. -/
def discriminatorSize : Nat := 8

/-- A kind of stored record. -/
structure Record (α : Type) where
  /-- The name that the discriminator is made from. -/
  name : String
  codec : Codec α
  /-- Bytes of the largest record, without the discriminator. -/
  space : Nat
  /-- The record that zero bytes stand for. -/
  blank : α

namespace Record

variable {α : Type}

/-- The tag in front of the records of this kind. -/
def discriminator (r : Record α) : Bytes 8 :=
  discriminatorOf ("account:" ++ r.name)

/-- Bytes that an account of this kind is created with. -/
def size (r : Record α) : Nat := discriminatorSize + r.space

/-- The stored form of a record. -/
def write (r : Record α) (value : α) : List UInt8 :=
  r.discriminator.toList ++ r.codec.write value

/-- The record behind a discriminator that is not looked at. -/
def readUnchecked (r : Record α) (data : List UInt8) : Except AccessFault α :=
  match r.codec.read (data.drop discriminatorSize) with
  | .ok (value, _) => .ok value
  | .error _ => .error .unreadableRecord

/-- The record in an account's data; bytes behind it mean nothing. -/
def read (r : Record α) (data : List UInt8) : Except AccessFault α :=
  if data.length < discriminatorSize then .error .noDiscriminator
  else if data.take discriminatorSize ≠ r.discriminator.toList then .error .wrongDiscriminator
  else r.readUnchecked data

end Record

open Codec

/-- The bridge record. -/
def Bridge.record : Record Bridge where
  name := "BridgeConfig"
  codec :=
    ((bytes 32).pair <| u32.pair <| (bytes 20).pair <| u64.pair <| FeeSchedule.codec.pair <|
      u64.pair <| u64.pair <| u64.pair <| u64.pair <| u64.pair <| u64.pair <| u64.pair <|
      u64.pair <| u8.pair <| u8.pair u8).map
      (fun (authority, hostChain, identity, nextNonce, fees, epochLength, minimumStake,
          reclaimAfter, pool, feesCollected, compensationClaimed, lockedValue, sponsorFunds,
          vaultBump, executorBump, bump) =>
        ⟨authority, hostChain, identity, nextNonce, fees, epochLength, minimumStake,
          reclaimAfter, pool, feesCollected, compensationClaimed, lockedValue, sponsorFunds,
          vaultBump, executorBump, bump⟩)
      (fun b => (b.authority, b.hostChain, b.identity, b.nextNonce, b.fees, b.epochLength,
        b.minimumStake, b.reclaimAfter, b.pool, b.feesCollected, b.compensationClaimed,
        b.lockedValue, b.sponsorFunds, b.vaultBump, b.executorBump, b.bump))
  space := 32 + 4 + 20 + 8 + 4 * 8 + 3 * 8 + 5 * 8 + 3
  blank := {}

/-- The record of a remote chain; whether it is active stands among its limits. -/
def Chain.record : Record Chain where
  name := "ChainConfig"
  codec :=
    (u32.pair <| u32.pair <| u32.pair <| u64.pair <| bool.pair <| u32.pair <| u32.pair <|
      bool.pair <| RateWindow.codec.pair <| RateWindow.codec.pair <| u64.pair u8).map
      (fun (id, confirmations, maxMessageBytes, maxComputeBudget, active, feeMultiplier,
          rateLimit, strictOrdering, outbound, inbound, highestInbound, bump) =>
        ⟨id, ⟨confirmations, maxMessageBytes, maxComputeBudget, feeMultiplier, rateLimit,
          strictOrdering⟩, active, outbound, inbound, highestInbound, bump⟩)
      (fun c => (c.id, c.limits.confirmations, c.limits.maxMessageBytes,
        c.limits.maxComputeBudget, c.active, c.limits.feeMultiplier, c.limits.rateLimit,
        c.limits.strictOrdering, c.outbound, c.inbound, c.highestInbound, c.bump))
  space := 4 + 4 + 4 + 8 + 1 + 4 + 4 + 1 + 2 * (8 + 4) + 8 + 1
  blank := {}

/-- The record of the relayers. -/
def Roster.record : Record Roster where
  name := "RelayerSet"
  codec :=
    (u8.pair <| u8.pair <| (list Relayer.codec.option).pair u8).map
      (fun (required, active, slots, bump) => ⟨required, active, slots, bump⟩)
      (fun r => (r.required, r.active, r.slots, r.bump))
  space := 1 + 1 + (4 + maxRelayers * (1 + (32 + 32 + 3 * 8))) + 1
  blank := {}

/-- The record of a sponsor. -/
def Sponsor.record : Record Sponsor where
  name := "SponsorAccount"
  codec :=
    ((bytes 32).pair <| u64.pair <| (list Sponsor.Target.codec).pair u8).map
      (fun (owner, balance, targets, bump) => ⟨owner, balance, targets, bump⟩)
      (fun s => (s.owner, s.balance, s.targets, s.bump))
  space := 32 + 8 + (4 + maxSponsoredTargets * (4 + 20)) + 1
  blank := {}

/-- The record of a receipt. -/
def Receipt.record : Record Receipt where
  name := "ProcessedReceipt"
  codec :=
    ((bytes 32).pair <| bool.pair <| u32.pair <| u64.pair <| bool.pair <| (bytes 32).pair <|
      u64.pair u8).map
      (fun (digest, processed, sourceChain, sourceNonce, succeeded, submitter, processedAt,
          bump) =>
        ⟨digest, processed, sourceChain, sourceNonce, succeeded, submitter, processedAt, bump⟩)
      (fun r => (r.digest, r.processed, r.sourceChain, r.sourceNonce, r.succeeded, r.submitter,
        r.processedAt, r.bump))
  space := 32 + 1 + 4 + 8 + 1 + 32 + 8 + 1
  blank := {}

/-- The record of a sender's cursor. -/
def Cursor.record : Record Cursor where
  name := "SenderCursor"
  codec :=
    (u32.pair <| (bytes 32).pair <| u64.option.pair u8).map
      (fun (sourceChain, senderKey, lastNonce, bump) =>
        ⟨sourceChain, senderKey, lastNonce, bump⟩)
      (fun c => (c.sourceChain, c.senderKey, c.lastNonce, c.bump))
  space := 4 + 32 + (1 + 8) + 1
  blank := {}

/-- The record of an outbound message, the only one whose space is known only when
it is created. -/
def OutboundMessage.record : Record OutboundMessage where
  name := "OutboundMessage"
  codec :=
    (u64.pair <| u32.pair <| (bytes 32).pair <| (bytes 20).pair <| byteString.pair <|
      u64.pair <| u64.pair <| u64.pair <| FeePayer.codec.pair <| u64.pair <|
      MessageStatus.codec.pair u8).map
      (fun (nonce, destinationChain, sender, destination, payload, value, computeBudget, fee,
          feePayer, createdAt, status, bump) =>
        ⟨nonce, destinationChain, sender, destination, payload, value, computeBudget, fee,
          feePayer, createdAt, status, bump⟩)
      (fun m => (m.nonce, m.destinationChain, m.sender, m.destination, m.payload, m.value,
        m.computeBudget, m.fee, m.feePayer, m.createdAt, m.status, m.bump))
  space := 8 + 4 + 32 + 20 + 4 + 8 + 8 + 8 + (1 + 32) + 8 + 1 + 1
  blank := {}

/-- Bytes that the account of a message with a payload of a given size is created with. -/
def OutboundMessage.sizeFor (payload : Nat) : Nat :=
  OutboundMessage.record.size + payload

/-- The record of the vault. -/
def Vault.record : Record Vault where
  name := "Vault"
  codec := u8.map (fun bump => ⟨bump⟩) (fun v => v.bump)
  space := 1
  blank := {}

end QuorumRelay
