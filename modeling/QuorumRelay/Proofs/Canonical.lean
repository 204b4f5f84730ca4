import QuorumRelay.Proofs.Ledger.Books

/-!
# Every value has one written form

Accounts, arguments and events are bytes, and others write and read them too.
What they rely on is that a value has one written form (`Canonical`): it is read
back from it, with exactly what stood behind it left over, and nothing else reads
as that value.  A byte for a truth value is then 0 or 1, a tag names an
alternative, and a list has as many elements as its length says, for otherwise
there would be a second way to write the same value.

## Cut short

That a written form with bytes missing at its end reads as nothing at all is a
consequence, and not one of the codec alone (`Canonical.of_faithful`).  If it
read as some other value, the missing bytes would be left over when the whole is
read, and the whole leaves nothing over.

## Discriminators

A stored record stands behind its discriminator, so its written form starts with
one.  `Record.read` throws away what stands behind the record, which nobody needs
when an account is read; `Record.readSplit` keeps it, and is otherwise the same
(`Record.read_eq_map_readSplit`).
-/

namespace QuorumRelay

/-- **Every value that fits has one written form**, and its written form does not go on. -/
structure Canonical {α ε : Type} (Fits : α → Prop) (write : α → List UInt8)
    (read : List UInt8 → Except ε (α × List UInt8)) : Prop where
  /-- What is written is read, up to where it ends. -/
  read_write : ∀ a, Fits a → ∀ rest, read (write a ++ rest) = .ok (a, rest)
  /-- What is read was written. -/
  write_of_read : ∀ input a rest, read input = .ok (a, rest) → Fits a ∧ input = write a ++ rest
  /-- What is cut short is not read. -/
  cut : ∀ a, Fits a → ∀ front missing, write a = front ++ missing → missing ≠ [] →
    ∃ e, read front = .error e

namespace Canonical

variable {α ε : Type} {Fits : α → Prop} {write : α → List UInt8}
  {read : List UInt8 → Except ε (α × List UInt8)}

/-- The first two laws imply the third. -/
theorem of_laws (hread : ∀ a, Fits a → ∀ rest, read (write a ++ rest) = .ok (a, rest))
    (hwrite : ∀ input a rest, read input = .ok (a, rest) → Fits a ∧ input = write a ++ rest) :
    Canonical Fits write read where
  read_write := hread
  write_of_read := hwrite
  cut a ha front missing hsplit hmissing := by
    cases hfront : read front with
    | error e => exact ⟨e, rfl⟩
    | ok found =>
      obtain ⟨b, rest⟩ := found
      obtain ⟨hb, hfront⟩ := hwrite front b rest hfront
      have hwhole : read (write a) = .ok (a, []) := by
        rw [← List.append_nil (write a)]
        exact hread a ha []
      have hleft : read (write a) = .ok (b, rest ++ missing) := by
        rw [hsplit, hfront, List.append_assoc]
        exact hread b hb _
      have hnothing : rest ++ missing = [] :=
        (Prod.mk.inj (Except.ok.inj (hleft.symm.trans hwhole))).2
      exact absurd (List.append_eq_nil_iff.1 hnothing).2 hmissing

theorem of_faithful {c : Codec α} (h : c.Faithful Fits) : Canonical Fits c.write c.read :=
  of_laws (fun _ ha rest => h.read_write ha rest) fun _ _ _ hread =>
    ⟨h.fits_of_read hread, (h.write_of_read hread).symm⟩

end Canonical

namespace Record

variable {α : Type} {r : Record α} {data : List UInt8}

/-- The record in an account's data, and the bytes behind it. -/
def readSplit (r : Record α) (data : List UInt8) : Except AccessFault (α × List UInt8) :=
  if data.length < discriminatorSize then .error .noDiscriminator
  else if data.take discriminatorSize ≠ r.discriminator.toList then .error .wrongDiscriminator
  else
    match r.codec.read (data.drop discriminatorSize) with
    | .ok found => .ok found
    | .error _ => .error .unreadableRecord

/-- Reading a record is splitting it off and throwing the rest away. -/
theorem read_eq_map_readSplit (r : Record α) (data : List UInt8) :
    r.read data = (r.readSplit data).map Prod.fst := by
  unfold read readSplit readUnchecked
  split
  · rfl
  split
  · rfl
  cases r.codec.read (data.drop discriminatorSize) with
  | error e => rfl
  | ok found => rfl

/-- Splitting is taking the discriminator off and then reading. -/
theorem readSplit_eq_ok {a : α} {rest : List UInt8} :
    r.readSplit data = .ok (a, rest) ↔
      ∃ body, data = r.discriminator.toList ++ body ∧ r.codec.read body = .ok (a, rest) := by
  have hlength : r.discriminator.toList.length = discriminatorSize := r.discriminator.length_toList
  constructor
  · intro h
    unfold readSplit at h
    split at h
    · cases h
    split at h
    · cases h
    rename_i htag
    refine ⟨data.drop discriminatorSize, ?_, ?_⟩
    · rw [← not_not.1 htag, List.take_append_drop]
    · cases hbody : r.codec.read (data.drop discriminatorSize) with
      | error e => simp only [hbody, reduceCtorEq] at h
      | ok found =>
        simp only [hbody, Except.ok.injEq] at h
        rw [h]
  · rintro ⟨body, rfl, hbody⟩
    have htake : (r.discriminator.toList ++ body).take discriminatorSize =
        r.discriminator.toList := by
      rw [← hlength, List.take_left]
    have hdrop : (r.discriminator.toList ++ body).drop discriminatorSize = body := by
      rw [← hlength, List.drop_left]
    have hlong : ¬ (r.discriminator.toList ++ body).length < discriminatorSize := by
      rw [List.length_append, hlength]
      omega
    unfold readSplit
    rw [if_neg hlong, if_neg (not_not.2 htake), hdrop, hbody]

/-- A discriminator in front keeps written forms canonical. -/
theorem canonical {Fits : α → Prop} (h : r.codec.Faithful Fits) :
    Canonical Fits r.write r.readSplit := by
  refine Canonical.of_laws (fun a ha rest => ?_) fun input a rest hread => ?_
  · refine readSplit_eq_ok.2 ⟨r.codec.write a ++ rest, ?_, h.read_write ha rest⟩
    rw [write, List.append_assoc]
  · obtain ⟨body, rfl, hbody⟩ := readSplit_eq_ok.1 hread
    refine ⟨h.fits_of_read hbody, ?_⟩
    rw [write, List.append_assoc, h.write_of_read hbody]

end Record

/-- **Reading undoes writing and accepts nothing else.**  This is so for what an account holds at
each of the places where the program keeps a record, whose reader is the one that every instruction
uses; for messages, attestations and lists of them, and deliveries; and for what the governor
chooses for a bridge, a chain and the fees.  Lists have to be shorter than their 32-bit lengths can
say. -/
theorem written_forms_are_canonical :
    (∀ p : Place, Canonical p.Fits p.record.write p.record.readSplit ∧
      ∀ data, p.record.read data = (p.record.readSplit data).map Prod.fst) ∧
    Canonical (fun m : InboundMessage => m.sender.length < 2 ^ 32 ∧ m.payload.length < 2 ^ 32)
      InboundMessage.codec.write InboundMessage.codec.read ∧
    Canonical (fun _ => True) Attestation.codec.write Attestation.codec.read ∧
    Canonical (fun as : List Attestation => as.length < 2 ^ 32)
      (Codec.list Attestation.codec).write (Codec.list Attestation.codec).read ∧
    Canonical (fun d : Delivery => d.sender.length < 2 ^ 32 ∧ d.payload.length < 2 ^ 32)
      Delivery.codec.write Delivery.codec.read ∧
    Canonical (fun _ => True) Chain.Limits.codec.write Chain.Limits.codec.read ∧
    Canonical (fun _ => True) Bridge.Settings.codec.write Bridge.Settings.codec.read ∧
    Canonical (fun _ => True) FeeSchedule.codec.write FeeSchedule.codec.read := by
  refine ⟨fun p => ⟨Record.canonical p.faithful, p.record.read_eq_map_readSplit⟩,
    .of_faithful InboundMessage.faithful_codec, .of_faithful Attestation.faithful_codec,
    .of_faithful ?_, .of_faithful Delivery.faithful_codec,
    .of_faithful Chain.Limits.faithful_codec, .of_faithful Bridge.Settings.faithful_codec,
    .of_faithful FeeSchedule.faithful_codec⟩
  exact Attestation.faithful_codec.list.of_iff fun as => and_iff_left fun _ _ => trivial

end QuorumRelay
