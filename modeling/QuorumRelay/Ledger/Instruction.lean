import QuorumRelay.Outbound.Queue
import QuorumRelay.Record

/-!
# Instructions

An instruction is a kind and the arguments of that kind.  Its data is the kind's
discriminator, made from its name, and the written form of the arguments; bytes
behind the arguments mean nothing.
-/

namespace QuorumRelay

open Codec

/-- The kinds of instructions. -/
inductive Instruction.Kind where
  | createBridge
  | configureChain
  | setChainActive
  | sendMessage
  | sendSponsored
  | estimateFee
  | markRelayed
  | confirmDelivery
  | reclaim
  | processMessage
  | processBatch
  | openReceipt
  | openCursor
  | registerRelayer
  | unregisterRelayer
  | removeRelayer
  | updateThreshold
  | claimCompensation
  | setFeeSchedule
  | setAuthority
  | openSponsor
  | depositSponsor
  | withdrawSponsor
  | setSponsoredTarget
  deriving DecidableEq

namespace Instruction.Kind

/-- All kinds. -/
def all : List Kind :=
  [createBridge, configureChain, setChainActive, sendMessage, sendSponsored, estimateFee,
   markRelayed, confirmDelivery, reclaim, processMessage, processBatch, openReceipt, openCursor,
   registerRelayer, unregisterRelayer, removeRelayer, updateThreshold, claimCompensation,
   setFeeSchedule, setAuthority, openSponsor, depositSponsor, withdrawSponsor,
   setSponsoredTarget]

/-- The name that the discriminator is made from. -/
def name : Kind → String
  | createBridge => "initialize"
  | configureChain => "configure_chain"
  | setChainActive => "set_chain_active"
  | sendMessage => "send_message"
  | sendSponsored => "send_sponsored"
  | estimateFee => "estimate_fee"
  | markRelayed => "mark_relayed"
  | confirmDelivery => "confirm_delivery"
  | reclaim => "reclaim"
  | processMessage => "process_message"
  | processBatch => "process_batch"
  | openReceipt => "open_receipt"
  | openCursor => "open_cursor"
  | registerRelayer => "register_relayer"
  | unregisterRelayer => "unregister_relayer"
  | removeRelayer => "remove_relayer"
  | updateThreshold => "update_threshold"
  | claimCompensation => "claim_compensation"
  | setFeeSchedule => "set_fee_schedule"
  | setAuthority => "set_authority"
  | openSponsor => "open_sponsor"
  | depositSponsor => "deposit_sponsor"
  | withdrawSponsor => "withdraw_sponsor"
  | setSponsoredTarget => "set_sponsored_target"

/-- The tag in front of the data of instructions of this kind. -/
def discriminator (k : Kind) : Bytes 8 :=
  discriminatorOf ("global:" ++ k.name)

/-- What an instruction of a kind is told. -/
def Args : Kind → Type
  | createBridge => Bridge.Settings
  | configureChain => ChainId × Chain.Limits
  | setChainActive => ChainId × Bool
  | sendMessage => SendRequest
  | sendSponsored => SendRequest
  | estimateFee => ChainId × UInt32 × UInt64
  | markRelayed => Nonce
  | confirmDelivery => Nonce × List Attestation
  | reclaim => Nonce
  | processMessage => Digest × InboundMessage × List Attestation
  | processBatch => List InboundMessage × List Attestation × List UInt8
  | openReceipt => Digest
  | openCursor => ChainId × List UInt8
  | registerRelayer => Key × Amount
  | unregisterRelayer => UInt8
  | removeRelayer => UInt8
  | updateThreshold => UInt8
  | claimCompensation => UInt8 × Amount
  | setFeeSchedule => FeeSchedule
  | setAuthority => Key
  | openSponsor => Unit
  | depositSponsor => Amount
  | withdrawSponsor => Amount
  | setSponsoredTarget => Sponsor.Target × Bool

end Instruction.Kind

/-- A request to send a message. -/
def SendRequest.codec : Codec SendRequest :=
  (u32.pair <| (bytes 20).pair <| byteString.pair <| u64.pair <| u64.pair u64).map
    (fun (destinationChain, destination, payload, value, computeBudget, maxFee) =>
      ⟨destinationChain, destination, payload, value, computeBudget, maxFee⟩)
    (fun q => (q.destinationChain, q.destination, q.payload, q.value, q.computeBudget, q.maxFee))

/-- Nothing to write. -/
def Codec.unit : Codec Unit where
  write _ := []
  read input := .ok ((), input)

/-- The written form of a kind's arguments. -/
def Instruction.Kind.codec : (k : Instruction.Kind) → Codec k.Args
  | createBridge => Bridge.Settings.codec
  | configureChain => u32.pair Chain.Limits.codec
  | setChainActive => u32.pair bool
  | sendMessage => SendRequest.codec
  | sendSponsored => SendRequest.codec
  | estimateFee => u32.pair (u32.pair u64)
  | markRelayed => u64
  | confirmDelivery => u64.pair (list Attestation.codec)
  | reclaim => u64
  | processMessage => (bytes 32).pair (InboundMessage.codec.pair (list Attestation.codec))
  | processBatch => (list InboundMessage.codec).pair ((list Attestation.codec).pair byteString)
  | openReceipt => bytes 32
  | openCursor => u32.pair byteString
  | registerRelayer => (bytes 32).pair u64
  | unregisterRelayer => u8
  | removeRelayer => u8
  | updateThreshold => u8
  | claimCompensation => u8.pair u64
  | setFeeSchedule => FeeSchedule.codec
  | setAuthority => bytes 32
  | openSponsor => Codec.unit
  | depositSponsor => u64
  | withdrawSponsor => u64
  | setSponsoredTarget => Sponsor.Target.codec.pair bool

/-- A kind and its arguments. -/
structure Instruction where
  kind : Instruction.Kind
  args : kind.Args

namespace Instruction

/-- The data of an instruction. -/
def encode (i : Instruction) : List UInt8 :=
  i.kind.discriminator.toList ++ i.kind.codec.write i.args

/-- The first bytes of data that stands for an event; the program takes none. -/
def eventTag : List UInt8 := [0xe4, 0x45, 0xa5, 0x2e, 0x51, 0xcb, 0x9a, 0x1d]

/-- The instruction that data stands for. -/
def decode (data : List UInt8) : Except AccessFault Instruction :=
  match Kind.all.find? fun k => k.discriminator.toList.isPrefixOf data with
  | some k =>
    match k.codec.read (data.drop discriminatorSize) with
    | .ok (args, _) => .ok ⟨k, args⟩
    | .error _ => .error .unreadableInstruction
  | none =>
    if eventTag.isPrefixOf data then .error .eventInstruction else .error .unknownInstruction

end Instruction

end QuorumRelay
