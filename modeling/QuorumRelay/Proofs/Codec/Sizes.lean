import Mathlib.Algebra.GroupWithZero.Nat
import QuorumRelay.Record

/-!
# How long written forms are

An account has the size it was created with, and a record is written into it
again and again; so the space that is reserved has to be enough for every record
that can ever stand there.  Most kinds of records always take the same space,
which is all of what is reserved for them.  Three kinds do not:

* a **roster** takes one byte for an empty slot and `1 + 88` for one that is
  occupied, and the space is for `maxRelayers` occupied ones;
* a **sponsor** takes 24 bytes for each destination, and the space is for
  `maxSponsoredTargets` of them;
* a **cursor** that has not moved yet lacks the eight bytes of its nonce.

An outbound message is created with the space for its own payload and for the
key of a sponsor.  So it fills its account exactly if a sponsor paid for it, and
is 32 bytes short of it otherwise (`OutboundMessage.length_write_eq_iff`).
-/

namespace QuorumRelay

namespace Codec

variable {α β : Type} {c : Codec α} {d : Codec β} {n : Nat}

@[simp] theorem write_map {view : α → β} {back : β → α} (b : β) :
    (c.map view back).write b = c.write (back b) := rfl

@[simp] theorem write_pair (p : α × β) : (c.pair d).write p = c.write p.1 ++ d.write p.2 := rfl

@[simp] theorem length_write_bytes (a : Bytes n) : ((bytes n).write a).length = n :=
  a.length_toList

@[simp] theorem length_write_u8 (x : UInt8) : (u8.write x).length = 1 := rfl

@[simp] theorem length_write_u32 (x : UInt32) : (u32.write x).length = 4 := by
  simp [u32]

@[simp] theorem length_write_u64 (x : UInt64) : (u64.write x).length = 8 := by
  simp [u64]

@[simp] theorem length_write_bool (b : Bool) : (bool.write b).length = 1 := by
  cases b <;> rfl

/-- A value that is there takes one byte more than by itself. -/
theorem length_write_option_le (h : ∀ a, (c.write a).length ≤ n) (o : Option α) :
    (c.option.write o).length ≤ 1 + n := by
  cases o with
  | none =>
    show 1 ≤ 1 + n
    omega
  | some a =>
    show (1 :: c.write a).length ≤ 1 + n
    have ha := h a
    rw [List.length_cons]
    omega

/-- A list takes the bytes of its count and those of its elements. -/
theorem length_write_list (as : List α) :
    ((list c).write as).length = 4 + (as.map fun a => (c.write a).length).sum := by
  show (u32.write _ ++ as.flatMap c.write).length = _
  rw [List.length_append, length_write_u32, List.length_flatMap]

theorem length_write_list_le (h : ∀ a, (c.write a).length ≤ n) (as : List α) :
    ((list c).write as).length ≤ 4 + as.length * n := by
  rw [length_write_list]
  refine Nat.add_le_add_left ?_ 4
  induction as with
  | nil => exact Nat.zero_le _
  | cons a as ih =>
    have ha := h a
    rw [List.map_cons, List.sum_cons, List.length_cons, Nat.succ_mul]
    omega

theorem length_write_list_of_forall {as : List α} (h : ∀ a ∈ as, (c.write a).length = n) :
    ((list c).write as).length = 4 + as.length * n := by
  rw [length_write_list, List.map_congr_left h, List.map_const', List.sum_replicate_nat]

@[simp] theorem length_write_byteString (bytes : List UInt8) :
    (byteString.write bytes).length = 4 + bytes.length := by
  rw [byteString, length_write_list_of_forall fun b _ => length_write_u8 b, Nat.mul_one]

end Codec

open Codec

theorem Record.length_write {α : Type} (r : Record α) (v : α) :
    (r.write v).length = discriminatorSize + (r.codec.write v).length := by
  rw [Record.write, List.length_append, Bytes.length_toList, discriminatorSize]

/-! ## Parts of records -/

@[simp] theorem FeeSchedule.length_write (f : FeeSchedule) :
    (FeeSchedule.codec.write f).length = 4 * 8 := by
  simp [FeeSchedule.codec]

@[simp] theorem RateWindow.length_write (w : RateWindow) :
    (RateWindow.codec.write w).length = 8 + 4 := by
  simp [RateWindow.codec]

theorem Relayer.length_write (e : Relayer) :
    (Relayer.codec.write e).length = 32 + 32 + 3 * 8 := by
  simp [Relayer.codec]

theorem Sponsor.Target.length_write (t : Sponsor.Target) :
    (Sponsor.Target.codec.write t).length = 4 + 20 := by
  simp [Sponsor.Target.codec]

@[simp] theorem MessageStatus.length_write (s : MessageStatus) :
    (MessageStatus.codec.write s).length = 1 := by
  cases s <;> rfl

/-- What a fee payer lacks of the bytes that are reserved for it: the key of a sponsor. -/
def FeePayer.spare : FeePayer → Nat
  | .sender => 32
  | .sponsor _ => 0

theorem FeePayer.length_write_add (p : FeePayer) :
    (FeePayer.codec.write p).length + p.spare = 1 + 32 := by
  cases p with
  | sender => rfl
  | sponsor owner =>
    show (1 :: owner.toList).length + 0 = _
    rw [List.length_cons, Bytes.length_toList]

theorem FeePayer.spare_eq_zero_iff {p : FeePayer} : p.spare = 0 ↔ ∃ owner, p = .sponsor owner := by
  cases p <;> simp [spare]

/-! ## Records -/

theorem Bridge.length_write (b : Bridge) :
    (Bridge.record.write b).length = Bridge.record.size := by
  rw [Record.length_write]
  simp [Bridge.record, Record.size]

theorem Chain.length_write (c : Chain) : (Chain.record.write c).length = Chain.record.size := by
  rw [Record.length_write]
  simp [Chain.record, Record.size]

theorem Receipt.length_write (r : Receipt) :
    (Receipt.record.write r).length = Receipt.record.size := by
  rw [Record.length_write]
  simp [Receipt.record, Record.size]

theorem Cursor.length_write_le (c : Cursor) :
    (Cursor.record.write c).length ≤ Cursor.record.size := by
  have hnonce := length_write_option_le (c := u64) (n := 8) (by simp) c.lastNonce
  rw [Record.length_write]
  simp only [Cursor.record, Record.size, write_map, write_pair, List.length_append,
    length_write_u32, length_write_bytes, length_write_u8]
  omega

/-- A cursor that has moved fills its space. -/
theorem Cursor.length_write_of_some {c : Cursor} {n : Nonce} (h : c.lastNonce = some n) :
    (Cursor.record.write c).length = Cursor.record.size := by
  have hnonce : (u64.option.write c.lastNonce).length = 1 + 8 := by
    rw [h]
    show (1 :: u64.write n).length = _
    rw [List.length_cons, length_write_u64]
  rw [Record.length_write]
  simp only [Cursor.record, Record.size, write_map, write_pair, List.length_append,
    length_write_u32, length_write_bytes, length_write_u8]
  omega

/-- **A roster takes no more space than one whose slots are all occupied.** -/
theorem Roster.length_write_le {r : Roster} (h : r.slots.length ≤ maxRelayers) :
    (Roster.record.write r).length ≤ Roster.record.size := by
  have hslot := length_write_option_le (n := 32 + 32 + 3 * 8)
    fun e => Nat.le_of_eq (Relayer.length_write e)
  have hslots := length_write_list_le hslot r.slots
  have hroom := Nat.mul_le_mul_right (1 + (32 + 32 + 3 * 8)) h
  rw [Record.length_write]
  simp only [Roster.record, Record.size, write_map, write_pair, List.length_append,
    length_write_u8]
  omega

/-- A roster whose slots are all occupied fills its space. -/
theorem Roster.length_write_of_full {r : Roster} (h : r.slots.length = maxRelayers)
    (hfull : none ∉ r.slots) : (Roster.record.write r).length = Roster.record.size := by
  have hslot : ∀ slot ∈ r.slots,
      (Relayer.codec.option.write slot).length = 1 + (32 + 32 + 3 * 8) := by
    intro slot hmem
    cases slot with
    | none => exact absurd hmem hfull
    | some e =>
      show (1 :: Relayer.codec.write e).length = _
      rw [List.length_cons, Relayer.length_write, Nat.add_comm]
  have hslots := length_write_list_of_forall hslot
  rw [Record.length_write]
  simp only [Roster.record, Record.size, write_map, write_pair, List.length_append,
    length_write_u8]
  omega

/-- **A sponsor takes no more space than one whose list is full.** -/
theorem Sponsor.length_write_le {s : Sponsor} (h : s.targets.length ≤ maxSponsoredTargets) :
    (Sponsor.record.write s).length ≤ Sponsor.record.size := by
  have htargets := length_write_list_le
    (fun t => Nat.le_of_eq (Sponsor.Target.length_write t)) s.targets
  have hroom := Nat.mul_le_mul_right (4 + 20) h
  rw [Record.length_write]
  simp only [Sponsor.record, Record.size, write_map, write_pair, List.length_append,
    length_write_bytes, length_write_u64, length_write_u8]
  omega

/-- A sponsor whose list is full fills its space. -/
theorem Sponsor.length_write_of_full {s : Sponsor} (h : s.targets.length = maxSponsoredTargets) :
    (Sponsor.record.write s).length = Sponsor.record.size := by
  have htarget : ∀ t ∈ s.targets, (Sponsor.Target.codec.write t).length = 4 + 20 :=
    fun t _ => Sponsor.Target.length_write t
  have htargets := length_write_list_of_forall htarget
  rw [Record.length_write]
  simp only [Sponsor.record, Record.size, write_map, write_pair, List.length_append,
    length_write_bytes, length_write_u64, length_write_u8]
  omega

namespace OutboundMessage

theorem length_write_add (m : OutboundMessage) :
    (OutboundMessage.record.write m).length + m.feePayer.spare = sizeFor m.payload.length := by
  have hpayer := m.feePayer.length_write_add
  rw [Record.length_write]
  simp only [sizeFor, OutboundMessage.record, Record.size, write_map, write_pair,
    List.length_append, length_write_u8, length_write_u32, length_write_u64, length_write_bytes,
    length_write_byteString, MessageStatus.length_write]
  omega

theorem length_write_le (m : OutboundMessage) :
    (OutboundMessage.record.write m).length ≤ sizeFor m.payload.length :=
  Nat.le.intro m.length_write_add

/-- **A message fills its account exactly if a sponsor paid for it.** -/
theorem length_write_eq_iff (m : OutboundMessage) :
    (OutboundMessage.record.write m).length = sizeFor m.payload.length ↔
      ∃ owner, m.feePayer = .sponsor owner := by
  have hlength := m.length_write_add
  rw [← FeePayer.spare_eq_zero_iff]
  omega

end OutboundMessage
end QuorumRelay
