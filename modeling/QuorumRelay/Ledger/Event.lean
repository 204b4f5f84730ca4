import QuorumRelay.Wire

/-!
# Events

What the program announces to those who follow it.  Each event has a name and a
written form, its fields in order.
-/

namespace QuorumRelay

open Codec

/-- A message was queued.  The event carries every field of the digest that
relayers will sign on the destination chain. -/
structure MessageSent where
  nonce : Nonce
  hostChain : ChainId
  identity : Address
  destinationChain : ChainId
  sender : Key
  /-- The sender's key in address form, the source sender on the far side. -/
  sourceSender : Address
  destination : Address
  payload : List UInt8
  value : Amount
  computeBudget : UInt64
  fee : Amount
  feePayer : FeePayer
  /-- Blocks that relayers wait before they attest. -/
  confirmations : UInt32
  createdAt : Slot
  deriving DecidableEq

/-- The written form of the announcement of a queued message. -/
def MessageSent.codec : Codec MessageSent :=
  (u64.pair <| u32.pair <| (bytes 20).pair <| u32.pair <| (bytes 32).pair <| (bytes 20).pair <|
    (bytes 20).pair <| byteString.pair <| u64.pair <| u64.pair <| u64.pair <|
    FeePayer.codec.pair <| u32.pair u64).map
    (fun (nonce, hostChain, identity, destinationChain, sender, sourceSender, destination,
        payload, value, computeBudget, fee, feePayer, confirmations, createdAt) =>
      ⟨nonce, hostChain, identity, destinationChain, sender, sourceSender, destination, payload,
        value, computeBudget, fee, feePayer, confirmations, createdAt⟩)
    (fun e => (e.nonce, e.hostChain, e.identity, e.destinationChain, e.sender, e.sourceSender,
      e.destination, e.payload, e.value, e.computeBudget, e.fee, e.feePayer, e.confirmations,
      e.createdAt))

/-- What the program announces. -/
inductive Event where
  | messageSent (message : MessageSent)
  | messageProcessed (digest : Digest) (sourceChain : ChainId) (sourceNonce : Nonce)
      (destination : Address) (submitter : Key) (succeeded : Bool)
  | messageStatusChanged (nonce : Nonce) (status : MessageStatus)
  | relayerRegistered (index : UInt8) (owner publicKey : Key) (stake : Amount)
  | relayerUnregistered (index : UInt8) (owner : Key) (payout : Amount)
  | thresholdUpdated (required active : UInt8)
  | chainConfigured (id : ChainId) (limits : Chain.Limits)
  | chainPauseUpdated (id : ChainId) (active : Bool)
  | compensationClaimed (index : UInt8) (owner : Key) (amount : Amount)
  | sponsorBalanceChanged (owner : Key) (balance : Amount)
  | feeScheduleUpdated (fees : FeeSchedule)
  | authorityTransferred (previous newAuthority : Key)
  deriving DecidableEq

namespace Event

/-- The name under which an event is announced. -/
def name : Event → String
  | messageSent .. => "MessageSent"
  | messageProcessed .. => "MessageProcessed"
  | messageStatusChanged .. => "MessageStatusChanged"
  | relayerRegistered .. => "RelayerRegistered"
  | relayerUnregistered .. => "RelayerUnregistered"
  | thresholdUpdated .. => "ThresholdUpdated"
  | chainConfigured .. => "ChainConfigured"
  | chainPauseUpdated .. => "ChainPauseUpdated"
  | compensationClaimed .. => "CompensationClaimed"
  | sponsorBalanceChanged .. => "SponsorBalanceChanged"
  | feeScheduleUpdated .. => "FeeScheduleUpdated"
  | authorityTransferred .. => "AuthorityTransferred"

/-- The written form of an event. -/
def encode : Event → List UInt8
  | messageSent message => MessageSent.codec.write message
  | messageProcessed digest sourceChain sourceNonce destination submitter succeeded =>
    digest.toList ++ u32.write sourceChain ++ u64.write sourceNonce ++ destination.toList ++
      submitter.toList ++ bool.write succeeded
  | messageStatusChanged nonce status => u64.write nonce ++ MessageStatus.codec.write status
  | relayerRegistered index owner publicKey stake =>
    u8.write index ++ owner.toList ++ publicKey.toList ++ u64.write stake
  | relayerUnregistered index owner payout => u8.write index ++ owner.toList ++ u64.write payout
  | thresholdUpdated required active => u8.write required ++ u8.write active
  | chainConfigured id limits => u32.write id ++ Chain.Limits.codec.write limits
  | chainPauseUpdated id active => u32.write id ++ bool.write active
  | compensationClaimed index owner amount => u8.write index ++ owner.toList ++ u64.write amount
  | sponsorBalanceChanged owner balance => owner.toList ++ u64.write balance
  | feeScheduleUpdated fees => FeeSchedule.codec.write fees
  | authorityTransferred previous newAuthority => previous.toList ++ newAuthority.toList

end Event

end QuorumRelay
