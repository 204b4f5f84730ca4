import Mathlib.Data.List.Nodup
import QuorumRelay.Ledger.Instruction
import QuorumRelay.Proofs.Codec.Records

/-!
# Instructions and their data

The data of an instruction starts with a tag of eight bytes that names its kind.
The twenty-four tags differ, so the kind is found again whatever follows
(`Instruction.find_kind`), and with it the form that the rest is written in
(`Instruction.Kind.faithful_codec`).  So data is read back as the instruction that
it was written for (`Instruction.decode_encode`), unless a list in it is longer than
a count can say.
-/

namespace QuorumRelay

theorem Codec.Faithful.unit : Codec.unit.Faithful fun _ => True where
  read_write _ _ := rfl
  write_of_read h := by cases h; rfl
  fits_of_read _ := trivial

theorem SendRequest.faithful_codec :
    SendRequest.codec.Faithful fun q => q.payload.length < 2 ^ 32 :=
  Codec.Faithful.map (Codec.Faithful.u32.pair ((Codec.Faithful.bytes 20).pair
    (Codec.Faithful.byteString.pair (Codec.Faithful.u64.pair
      (Codec.Faithful.u64.pair Codec.Faithful.u64)))))
    (fun _ => rfl) (fun _ => rfl) fun _ => by simp

namespace Instruction

theorem Kind.mem_all (k : Kind) : k ∈ Kind.all := by
  cases k <;> decide

/-- The twenty-four kinds of instructions have twenty-four different tags. -/
theorem Kind.discriminators_nodup : (Kind.all.map Kind.discriminator).Nodup := by
  decide +kernel

/-- **The tag in front of the data tells the kind.** -/
theorem find_kind (k : Kind) (rest : List UInt8) :
    (Kind.all.find? fun k' => k'.discriminator.toList.isPrefixOf
      (k.discriminator.toList ++ rest)) = some k := by
  have hunique : ∀ k' : Kind,
      k'.discriminator.toList <+: k.discriminator.toList ++ rest → k' = k := by
    intro k' hprefix
    have hlen : k'.discriminator.toList.length = k.discriminator.toList.length := by
      rw [k'.discriminator.length_toList, k.discriminator.length_toList]
    have htag : k'.discriminator.toList = k.discriminator.toList :=
      (List.prefix_of_prefix_length_le hprefix (List.prefix_append ..)
        (Nat.le_of_eq hlen)).eq_of_length hlen
    exact List.inj_on_of_nodup_map Kind.discriminators_nodup k'.mem_all k.mem_all (Bytes.ext htag)
  cases hfind : Kind.all.find? fun k' => k'.discriminator.toList.isPrefixOf
      (k.discriminator.toList ++ rest) with
  | none =>
    have hall := List.find?_eq_none.1 hfind k k.mem_all
    exact absurd (List.isPrefixOf_iff_prefix.2 (List.prefix_append ..)) hall
  | some k' =>
    have htag := List.find?_some hfind
    rw [hunique k' (List.isPrefixOf_iff_prefix.1 htag)]

/-- The lengths of the lists in the arguments have 32 bits. -/
def Kind.Fits : (k : Kind) → k.Args → Prop
  | .sendMessage, q => q.payload.length < 2 ^ 32
  | .sendSponsored, q => q.payload.length < 2 ^ 32
  | .confirmDelivery, (_, attestations) => attestations.length < 2 ^ 32
  | .processMessage, (_, m, attestations) =>
    (m.sender.length < 2 ^ 32 ∧ m.payload.length < 2 ^ 32) ∧ attestations.length < 2 ^ 32
  | .processBatch, (messages, attestations, extras) =>
    (messages.length < 2 ^ 32 ∧
      ∀ m ∈ messages, m.sender.length < 2 ^ 32 ∧ m.payload.length < 2 ^ 32) ∧
      attestations.length < 2 ^ 32 ∧ extras.length < 2 ^ 32
  | .openCursor, (_, sender) => sender.length < 2 ^ 32
  | _, _ => True

open Codec in
/-- **The arguments of every kind are read back**, where they fit. -/
theorem Kind.faithful_codec (k : Kind) : k.codec.Faithful k.Fits := by
  have hattestations : (list Attestation.codec).Faithful fun as => as.length < 2 ^ 32 :=
    Attestation.faithful_codec.list.of_iff fun _ => by simp
  cases k with
  | createBridge => exact Bridge.Settings.faithful_codec
  | configureChain =>
    exact (Faithful.u32.pair Chain.Limits.faithful_codec).of_iff fun _ => and_self_iff
  | setChainActive => exact (Faithful.u32.pair .bool).of_iff fun _ => and_self_iff
  | sendMessage | sendSponsored => exact SendRequest.faithful_codec
  | estimateFee =>
    exact (Faithful.u32.pair (Faithful.u32.pair .u64)).of_iff fun _ => by simp [Kind.Fits]
  | markRelayed | reclaim => exact .u64
  | confirmDelivery =>
    exact (Faithful.u64.pair hattestations).of_iff fun _ => iff_of_eq (true_and _)
  | processMessage =>
    exact ((Faithful.bytes 32).pair (InboundMessage.faithful_codec.pair hattestations)).of_iff
      fun _ => iff_of_eq (true_and _)
  | processBatch =>
    exact InboundMessage.faithful_codec.list.pair (hattestations.pair .byteString)
  | openReceipt | setAuthority => exact .bytes 32
  | openCursor => exact (Faithful.u32.pair .byteString).of_iff fun _ => iff_of_eq (true_and _)
  | registerRelayer => exact ((Faithful.bytes 32).pair .u64).of_iff fun _ => and_self_iff
  | unregisterRelayer | removeRelayer | updateThreshold => exact .u8
  | claimCompensation => exact (Faithful.u8.pair .u64).of_iff fun _ => and_self_iff
  | setFeeSchedule => exact FeeSchedule.faithful_codec
  | openSponsor => exact .unit
  | depositSponsor | withdrawSponsor => exact .u64
  | setSponsoredTarget =>
    exact (Sponsor.Target.faithful_codec.pair .bool).of_iff fun _ => and_self_iff

/-- **An instruction is read back from its data**, where its arguments fit. -/
theorem decode_encode (i : Instruction) (h : i.kind.Fits i.args) : decode i.encode = .ok i := by
  obtain ⟨k, args⟩ := i
  have hread := k.faithful_codec.read_write h []
  rw [List.append_nil] at hread
  have hdrop : (k.discriminator.toList ++ k.codec.write args).drop discriminatorSize =
      k.codec.write args :=
    List.drop_left' k.discriminator.length_toList
  show decode (k.discriminator.toList ++ k.codec.write args) = _
  unfold decode
  simp only [find_kind, hdrop, hread]

end Instruction
end QuorumRelay
