import QuorumRelay.Bridge
import QuorumRelay.Chain
import QuorumRelay.Codec
import QuorumRelay.Inbound.Message
import QuorumRelay.Outbound.Message
import QuorumRelay.Roster
import QuorumRelay.Sponsor

/-!
# Written forms of the values that travel

The codecs of requests, messages and the parts of records, field by field in the
order in which they are written.
-/

namespace QuorumRelay

open Codec

/-- Fees are written in the order of their declaration. -/
def FeeSchedule.codec : Codec FeeSchedule :=
  (u64.pair <| u64.pair <| u64.pair u64).map
    (fun (base, perByte, perComputeUnit, relayReward) =>
      ⟨base, perByte, perComputeUnit, relayReward⟩)
    (fun f => (f.base, f.perByte, f.perComputeUnit, f.relayReward))

/-- Settings of a bridge. -/
def Bridge.Settings.codec : Codec Bridge.Settings :=
  (u32.pair <| FeeSchedule.codec.pair <| u64.pair <| u64.pair u64).map
    (fun (hostChain, fees, epochLength, minimumStake, reclaimAfter) =>
      ⟨hostChain, fees, epochLength, minimumStake, reclaimAfter⟩)
    (fun s => (s.hostChain, s.fees, s.epochLength, s.minimumStake, s.reclaimAfter))

/-- Limits of a chain. -/
def Chain.Limits.codec : Codec Chain.Limits :=
  (u32.pair <| u32.pair <| u64.pair <| u32.pair <| u32.pair bool).map
    (fun (confirmations, maxMessageBytes, maxComputeBudget, feeMultiplier, rateLimit,
        strictOrdering) =>
      ⟨confirmations, maxMessageBytes, maxComputeBudget, feeMultiplier, rateLimit, strictOrdering⟩)
    (fun l => (l.confirmations, l.maxMessageBytes, l.maxComputeBudget, l.feeMultiplier,
      l.rateLimit, l.strictOrdering))

/-- A rate window. -/
def RateWindow.codec : Codec RateWindow :=
  (u64.pair u32).map (fun (start, count) => ⟨start, count⟩) (fun w => (w.start, w.count))

/-- A relayer. -/
def Relayer.codec : Codec Relayer :=
  ((bytes 32).pair <| (bytes 32).pair <| u64.pair <| u64.pair u64).map
    (fun (owner, publicKey, stake, earned, registeredAt) =>
      ⟨owner, publicKey, stake, earned, registeredAt⟩)
    (fun r => (r.owner, r.publicKey, r.stake, r.earned, r.registeredAt))

/-- A sponsored destination. -/
def Sponsor.Target.codec : Codec Sponsor.Target :=
  (u32.pair (bytes 20)).map (fun (chain, address) => ⟨chain, address⟩)
    (fun t => (t.chain, t.address))

/-- A message from a remote chain. -/
def InboundMessage.codec : Codec InboundMessage :=
  (u32.pair <| u64.pair <| byteString.pair <| (bytes 20).pair <| byteString.pair <|
    u64.pair u64).map
    (fun (sourceChain, sourceNonce, sender, destination, payload, value, computeBudget) =>
      ⟨sourceChain, sourceNonce, sender, destination, payload, value, computeBudget⟩)
    (fun m => (m.sourceChain, m.sourceNonce, m.sender, m.destination, m.payload, m.value,
      m.computeBudget))

/-- An attestation. -/
def Attestation.codec : Codec Attestation :=
  (u8.pair (bytes 64)).map (fun (index, signature) => ⟨index, signature⟩)
    (fun a => (a.index, a.signature))

/-- What a destination program is handed. -/
def Delivery.codec : Codec Delivery :=
  ((bytes 32).pair <| u32.pair <| u64.pair <| byteString.pair <| u64.pair byteString).map
    (fun (digest, sourceChain, sourceNonce, sender, value, payload) =>
      ⟨digest, sourceChain, sourceNonce, sender, value, payload⟩)
    (fun d => (d.digest, d.sourceChain, d.sourceNonce, d.sender, d.value, d.payload))

/-- A status is the tag of its place in the list of statuses. -/
def MessageStatus.codec : Codec MessageStatus where
  write
    | .queued => [0]
    | .relayed => [1]
    | .confirmed => [2]
    | .failed => [3]
  read
    | [] => .error .tooShort
    | b :: rest =>
      if b = 0 then .ok (.queued, rest)
      else if b = 1 then .ok (.relayed, rest)
      else if b = 2 then .ok (.confirmed, rest)
      else if b = 3 then .ok (.failed, rest)
      else .error (.unknownTag b)

/-- A fee payer is the tag 0, or the tag 1 and the sponsor's key. -/
def FeePayer.codec : Codec FeePayer :=
  (bytes 32).option.map
    (fun
      | none => .sender
      | some owner => .sponsor owner)
    (fun
      | .sender => none
      | .sponsor owner => some owner)

end QuorumRelay
