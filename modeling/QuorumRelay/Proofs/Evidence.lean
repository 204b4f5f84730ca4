import QuorumRelay.Proofs.Codec.Laws
import QuorumRelay.Quorum.Evidence

/-!
# What counts as evidence

The verifier on the ledger accepts a signature if the host's Ed25519 program
checked it earlier in the transaction.  This file says what that means for the
bytes of the transaction, without the reader that the program uses: somewhere
below the running instruction stands an instruction of the Ed25519 program, and
one of the records it announces has its fourteen bytes in their place, points
into that very instruction three times, and finds there the signature, the key
and the message, byte for byte (`Evidence.Written`).

The converse does not hold of a record by itself: the program refuses evidence that
is malformed anywhere, so well-placed bytes need not be accepted.
-/

namespace QuorumRelay
namespace Evidence

variable {data : List UInt8} {n : Nat} {p : ProvenSignature}

/-! ## The bytes of a record -/

/-- The fourteen bytes of a record whose parts all lie in its own instruction. -/
def layout (signatureOffset keyOffset messageOffset messageSize : UInt16) : List UInt8 :=
  littleEndian 2 signatureOffset.toNat ++ [0xFF, 0xFF] ++ littleEndian 2 keyOffset.toNat ++
    [0xFF, 0xFF] ++ littleEndian 2 messageOffset.toNat ++ littleEndian 2 messageSize.toNat ++
    [0xFF, 0xFF]

/-- **A record of an Ed25519 instruction says a signature**: it is one of those that the first
byte counts, and the bytes it points to are the signature, the key and the message. -/
structure Written (data : List UInt8) (n : Nat) (p : ProvenSignature) : Prop where
  counted : ∃ count padding rest, data = count :: padding :: rest ∧ n < count.toNat
  placed : ∃ signatureOffset keyOffset messageOffset messageSize : UInt16,
    (data.drop (2 + 14 * n)).take 14 =
      layout signatureOffset keyOffset messageOffset messageSize ∧
    (data.drop signatureOffset.toNat).take 64 = p.signature.toList ∧
    (data.drop keyOffset.toNat).take 32 = p.publicKey.toList ∧
    (data.drop messageOffset.toNat).take messageSize.toNat = p.message ∧
    p.message.length = messageSize.toNat

theorem Record.faithful_codec : Record.codec.Faithful fun _ => True := by
  open Codec.Faithful in
  exact map (u16.pair (u16.pair (u16.pair (u16.pair (u16.pair (u16.pair u16))))))
    (fun _ => rfl) (fun _ => rfl) fun _ => by simp

/-- A record is written as its seven integers, the little end first. -/
theorem write_record (r : Record) : Record.codec.write r =
    littleEndian 2 r.signatureOffset.toNat ++ (littleEndian 2 r.signatureInstruction.toNat ++
      (littleEndian 2 r.keyOffset.toNat ++ (littleEndian 2 r.keyInstruction.toNat ++
        (littleEndian 2 r.messageOffset.toNat ++ (littleEndian 2 r.messageSize.toNat ++
          littleEndian 2 r.messageInstruction.toNat))))) := rfl

/-- A record of which all parts lie in its own instruction. -/
theorem write_eq_layout {r : Record} (h : r.signatureInstruction = here ∧
    r.keyInstruction = here ∧ r.messageInstruction = here) : Record.codec.write r =
      layout r.signatureOffset r.keyOffset r.messageOffset r.messageSize := by
  rw [write_record, h.1, h.2.1, h.2.2, layout]
  simp only [List.append_assoc]
  rfl

theorem length_write_record (r : Record) : (Record.codec.write r).length = recordSize := by
  rw [write_record]
  simp only [List.length_append, length_littleEndian, recordSize]

/-! ## Reading them -/

/-- A stretch is read if it lies inside the data. -/
theorem slice_eq_ok_iff {offset size : Nat} {found : List UInt8} :
    slice data offset size = .ok found ↔
      offset + size ≤ data.length ∧ (data.drop offset).take size = found := by
  rw [slice]
  split
  · rename_i hle
    simp [hle]
  · rename_i hgt
    simp [hgt, malformed]

theorem bytesAt_eq_ok_iff {size offset : Nat} {found : Bytes size} (hsize : 0 < size) :
    bytesAt size data offset = .ok found ↔
      offset + size ≤ data.length ∧ (data.drop offset).take size = found.toList := by
  rw [bytesAt]
  constructor
  · intro h
    split at h
    · rename_i rest hsplit
      cases h
      have happend := Bytes.eq_append_of_split? hsplit
      have hlen := congrArg List.length happend
      rw [List.length_drop, List.length_append, found.length_toList] at hlen
      exact ⟨by omega, by rw [happend, List.take_left' found.length_toList]⟩
    · cases h
  · rintro ⟨-, htake⟩
    have hsplit : Bytes.split? (data.drop offset) =
        some (found, (data.drop offset).drop size) := by
      have happend := Bytes.split?_append found ((data.drop offset).drop size)
      rwa [← htake, List.take_append_drop] at happend
    rw [hsplit]

/-- A record that was read is written where it was read. -/
theorem recordAt_eq_ok {r : Record} (h : recordAt data n = .ok r) :
    (data.drop (2 + 14 * n)).take 14 = Record.codec.write r := by
  unfold recordAt at h
  obtain ⟨written, hslice, h⟩ := except_bind_eq_ok.1 h
  obtain ⟨hinside, hwritten⟩ := slice_eq_ok_iff.1 hslice
  have hlen : written.length = recordSize := by
    rw [← hwritten, List.length_take, List.length_drop]
    omega
  cases hread : Record.codec.read written with
  | error e => simp [hread, malformed] at h
  | ok found =>
    obtain ⟨r', rest⟩ := found
    simp only [hread, except_pure_eq_ok] at h
    subst h
    have hjoin := Record.faithful_codec.write_of_read hread
    have hrest : rest = [] := by
      have htotal := congrArg List.length hjoin
      rw [List.length_append, length_write_record, hlen] at htotal
      exact List.length_eq_zero_iff.1 (by omega)
    rw [hrest, List.append_nil] at hjoin
    rw [hjoin, ← hwritten, headerSize, recordSize, Nat.mul_comm 14 n]

/-- A signature that was read is written: its record and the bytes the record points to. -/
theorem signatureAt_eq_ok (h : signatureAt data n = .ok p) :
    ∃ signatureOffset keyOffset messageOffset messageSize : UInt16,
      (data.drop (2 + 14 * n)).take 14 =
        layout signatureOffset keyOffset messageOffset messageSize ∧
      (data.drop signatureOffset.toNat).take 64 = p.signature.toList ∧
      (data.drop keyOffset.toNat).take 32 = p.publicKey.toList ∧
      (data.drop messageOffset.toNat).take messageSize.toNat = p.message ∧
      p.message.length = messageSize.toNat := by
  unfold signatureAt at h
  simp only [except_bind_eq_ok, except_pure_eq_ok, require_eq_ok] at h
  obtain ⟨r, hrecord, -, hhere, signature, hsignature, key, hkey, message, hmessage, rfl⟩ := h
  obtain ⟨-, hsignature⟩ := (bytesAt_eq_ok_iff (by decide)).1 hsignature
  obtain ⟨-, hkey⟩ := (bytesAt_eq_ok_iff (by decide)).1 hkey
  obtain ⟨hinside, hslice⟩ := slice_eq_ok_iff.1 hmessage
  have hlen : message.length = r.messageSize.toNat := by
    rw [← hslice, List.length_take, List.length_drop]
    omega
  exact ⟨r.signatureOffset, r.keyOffset, r.messageOffset, r.messageSize,
    (recordAt_eq_ok hrecord).trans (write_eq_layout hhere), hsignature, hkey, hslice, hlen⟩

/-- Every signature that parsing finds is written in one of the announced records. -/
theorem written_of_parse {proofs : List ProvenSignature} (h : parse data = .ok proofs)
    (hp : p ∈ proofs) : ∃ n, Written data n p := by
  unfold parse at h
  split at h
  · rename_i count padding rest
    obtain ⟨n, hn, hread⟩ := exists_of_mem_except_mapM h hp
    exact ⟨n, ⟨count, padding, rest, rfl, List.mem_range.1 hn⟩, signatureAt_eq_ok hread⟩
  · cases h

/-! ## The log -/

/-- **Evidence in the log of a transaction**: a record of an Ed25519 instruction that stands
below the running one. -/
def Recorded (log : InstructionLog) (p : ProvenSignature) : Prop :=
  ∃ k < log.current, ∃ i, log.instructions[k]? = some i ∧ i.program = ed25519Program ∧
    ∃ n, Written i.data n p

/-- Everything that is loaded from the log is evidence in it, and the log is the genuine one. -/
theorem recorded_of_load {log : InstructionLog} {proven : List ProvenSignature}
    (h : load log = .ok proven) :
    log.key = instructionLogKey ∧ ∀ p ∈ proven, Recorded log p := by
  unfold load at h
  simp only [except_bind_eq_ok, except_pure_eq_ok, require_eq_ok] at h
  obtain ⟨-, hkey, found, hfound, rfl⟩ := h
  refine ⟨hkey, fun p hp => ?_⟩
  obtain ⟨proofs, hproofs, hp⟩ := List.mem_flatten.1 hp
  obtain ⟨k, hk, hone⟩ := exists_of_mem_except_mapM hfound hproofs
  unfold ofInstruction at hone
  split at hone
  · cases hone
  · rename_i i hi
    split at hone
    · rename_i hprogram
      exact ⟨k, List.mem_range.1 hk, i, hi, hprogram, written_of_parse hone hp⟩
    · cases hone
      cases hp

/-- **The verifier accepts what is written in the log and nothing else.** -/
theorem recorded_of_verifier {log : InstructionLog} {proven : List ProvenSignature}
    (h : load log = .ok proven) {publicKey : Key} {digest : Digest} {signature : Signature}
    (hv : verifier proven publicKey digest signature = true) :
    Recorded log ⟨publicKey, signature, digest.toList⟩ := by
  unfold verifier at hv
  obtain ⟨p, hp, hsame⟩ := List.any_eq_true.1 hv
  simp only [Bool.and_eq_true, decide_eq_true_eq] at hsame
  obtain ⟨⟨rfl, rfl⟩, hmessage⟩ := hsame
  rw [← hmessage]
  exact (recorded_of_load h).2 p hp

end Evidence
end QuorumRelay
