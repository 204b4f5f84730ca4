import QuorumRelay.Proofs.Codec.Laws
import QuorumRelay.Record

/-!
# Records and messages are read back

Every kind of record has a faithful codec.  Three kinds hold a list and so have
values that do not fit: a roster its slots, a sponsor its destinations, an
outbound message its payload.  All other records fit always.

What travels next to the records is read back too: the arguments of instructions,
the attestations, and what a destination program is handed.  Here it is messages
and deliveries that hold byte strings.
-/

namespace QuorumRelay

open Codec (Faithful)

/-! ## Parts of records -/

theorem FeeSchedule.faithful_codec : FeeSchedule.codec.Faithful fun _ => True :=
  Faithful.map (Faithful.u64.pair (Faithful.u64.pair (Faithful.u64.pair Faithful.u64)))
    (fun _ => rfl) (fun _ => rfl) fun _ => by simp

theorem RateWindow.faithful_codec : RateWindow.codec.Faithful fun _ => True :=
  Faithful.map (Faithful.u64.pair Faithful.u32)
    (fun _ => rfl) (fun _ => rfl) fun _ => by simp

theorem Relayer.faithful_codec : Relayer.codec.Faithful fun _ => True :=
  Faithful.map ((Faithful.bytes 32).pair ((Faithful.bytes 32).pair
    (Faithful.u64.pair (Faithful.u64.pair Faithful.u64))))
    (fun _ => rfl) (fun _ => rfl) fun _ => by simp

theorem Sponsor.Target.faithful_codec : Sponsor.Target.codec.Faithful fun _ => True :=
  Faithful.map (Faithful.u32.pair (Faithful.bytes 20))
    (fun _ => rfl) (fun _ => rfl) fun _ => by simp

theorem FeePayer.faithful_codec : FeePayer.codec.Faithful fun _ => True :=
  Faithful.map (Faithful.bytes 32).option (fun p => by cases p <;> rfl)
    (fun o => by cases o <;> rfl) fun _ => by simp

theorem MessageStatus.faithful_codec : MessageStatus.codec.Faithful fun _ => True where
  read_write {a} _ rest := by cases a <;> rfl
  write_of_read {input rest a} hr := by
    cases input with
    | nil => simp [MessageStatus.codec] at hr
    | cons b input =>
      by_cases h0 : b = 0
      · subst h0; cases hr; rfl
      by_cases h1 : b = 1
      · subst h1; cases hr; rfl
      by_cases h2 : b = 2
      · subst h2; cases hr; rfl
      by_cases h3 : b = 3
      · subst h3; cases hr; rfl
      simp [MessageStatus.codec, h0, h1, h2, h3] at hr
  fits_of_read _ := trivial

/-! ## Records -/

theorem Bridge.faithful_codec : Bridge.record.codec.Faithful fun _ => True := by
  dsimp only [Bridge.record]
  refine Faithful.map ((Faithful.bytes 32).pair (Faithful.u32.pair ((Faithful.bytes 20).pair
    (Faithful.u64.pair
    (FeeSchedule.faithful_codec.pair (Faithful.u64.pair (Faithful.u64.pair (Faithful.u64.pair
    (Faithful.u64.pair (Faithful.u64.pair (Faithful.u64.pair (Faithful.u64.pair
    (Faithful.u64.pair (Faithful.u8.pair (Faithful.u8.pair Faithful.u8)))))))))))))))
    (fun _ => rfl) (fun _ => rfl) fun _ => ?_
  simp

theorem Chain.faithful_codec : Chain.record.codec.Faithful fun _ => True := by
  dsimp only [Chain.record]
  refine Faithful.map (Faithful.u32.pair (Faithful.u32.pair (Faithful.u32.pair (Faithful.u64.pair
    (Faithful.bool.pair (Faithful.u32.pair (Faithful.u32.pair (Faithful.bool.pair
    (RateWindow.faithful_codec.pair (RateWindow.faithful_codec.pair
    (Faithful.u64.pair Faithful.u8)))))))))))
    (fun _ => rfl) (fun _ => rfl) fun _ => ?_
  simp

/-- A roster fits when the number of its slots has 32 bits. -/
theorem Roster.faithful_codec :
    Roster.record.codec.Faithful fun r => r.slots.length < 2 ^ 32 := by
  dsimp only [Roster.record]
  refine Faithful.map (Faithful.u8.pair (Faithful.u8.pair (Relayer.faithful_codec.option.list.pair
    Faithful.u8)))
    (fun _ => rfl) (fun _ => rfl) fun _ => ?_
  simp

/-- A sponsor fits when the number of its destinations has 32 bits. -/
theorem Sponsor.faithful_codec :
    Sponsor.record.codec.Faithful fun s => s.targets.length < 2 ^ 32 := by
  dsimp only [Sponsor.record]
  refine Faithful.map ((Faithful.bytes 32).pair (Faithful.u64.pair
    (Sponsor.Target.faithful_codec.list.pair Faithful.u8)))
    (fun _ => rfl) (fun _ => rfl) fun _ => ?_
  simp

theorem Receipt.faithful_codec : Receipt.record.codec.Faithful fun _ => True := by
  dsimp only [Receipt.record]
  refine Faithful.map ((Faithful.bytes 32).pair (Faithful.bool.pair (Faithful.u32.pair
    (Faithful.u64.pair
    (Faithful.bool.pair ((Faithful.bytes 32).pair (Faithful.u64.pair Faithful.u8)))))))
    (fun _ => rfl) (fun _ => rfl) fun _ => ?_
  simp

theorem Cursor.faithful_codec : Cursor.record.codec.Faithful fun _ => True := by
  dsimp only [Cursor.record]
  refine Faithful.map
    (Faithful.u32.pair ((Faithful.bytes 32).pair (Faithful.u64.option.pair Faithful.u8)))
    (fun _ => rfl) (fun _ => rfl) fun _ => ?_
  simp

/-- An outbound message fits when the length of its payload has 32 bits. -/
theorem OutboundMessage.faithful_codec :
    OutboundMessage.record.codec.Faithful fun m => m.payload.length < 2 ^ 32 := by
  dsimp only [OutboundMessage.record]
  refine Faithful.map (Faithful.u64.pair (Faithful.u32.pair ((Faithful.bytes 32).pair
    ((Faithful.bytes 20).pair
    (Faithful.byteString.pair (Faithful.u64.pair (Faithful.u64.pair (Faithful.u64.pair
    (FeePayer.faithful_codec.pair (Faithful.u64.pair (MessageStatus.faithful_codec.pair
    Faithful.u8)))))))))))
    (fun _ => rfl) (fun _ => rfl) fun _ => ?_
  simp

theorem Vault.faithful_codec : Vault.record.codec.Faithful fun _ => True := by
  dsimp only [Vault.record]
  exact Faithful.map Faithful.u8 (fun _ => rfl) (fun _ => rfl) fun _ => Iff.rfl

/-! ## Values that travel -/

theorem Bridge.Settings.faithful_codec : Bridge.Settings.codec.Faithful fun _ => True :=
  Faithful.map (Faithful.u32.pair (FeeSchedule.faithful_codec.pair
    (Faithful.u64.pair (Faithful.u64.pair Faithful.u64))))
    (fun _ => rfl) (fun _ => rfl) fun _ => by simp

theorem Chain.Limits.faithful_codec : Chain.Limits.codec.Faithful fun _ => True :=
  Faithful.map (Faithful.u32.pair (Faithful.u32.pair (Faithful.u64.pair (Faithful.u32.pair
    (Faithful.u32.pair Faithful.bool)))))
    (fun _ => rfl) (fun _ => rfl) fun _ => by simp

theorem Attestation.faithful_codec : Attestation.codec.Faithful fun _ => True :=
  Faithful.map (Faithful.u8.pair (Faithful.bytes 64))
    (fun _ => rfl) (fun _ => rfl) fun _ => by simp

/-- An inbound message fits when the lengths of its sender and its payload have 32 bits. -/
theorem InboundMessage.faithful_codec : InboundMessage.codec.Faithful fun m =>
    m.sender.length < 2 ^ 32 ∧ m.payload.length < 2 ^ 32 :=
  Faithful.map (Faithful.u32.pair (Faithful.u64.pair (Faithful.byteString.pair
    ((Faithful.bytes 20).pair (Faithful.byteString.pair (Faithful.u64.pair Faithful.u64))))))
    (fun _ => rfl) (fun _ => rfl) fun _ => by simp

/-- So does what a destination program is handed. -/
theorem Delivery.faithful_codec : Delivery.codec.Faithful fun d =>
    d.sender.length < 2 ^ 32 ∧ d.payload.length < 2 ^ 32 :=
  Faithful.map ((Faithful.bytes 32).pair (Faithful.u32.pair (Faithful.u64.pair
    (Faithful.byteString.pair (Faithful.u64.pair Faithful.byteString)))))
    (fun _ => rfl) (fun _ => rfl) fun _ => by simp

end QuorumRelay
