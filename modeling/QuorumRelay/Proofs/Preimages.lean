import QuorumRelay.Digest
import QuorumRelay.Proofs.Codec.Laws

/-!
# What a digest binds

A relayer signs 32 bytes, and what it means by them is a message, a batch or a
confirmation.  Two meanings can share their 32 bytes in two ways: the preimages
are the same bytes, or the hash takes different bytes to the same digest.  The
first is ruled out here, by looking at the preimages alone; the second is the
only thing left to ask of the hash (`Digest.binds_subject`).

## How a preimage is read

Fields are peeled off the front.  A field of fixed width ends where its width
says, and the sender, the only field whose width varies, stands behind its
length in one byte.  So each lemma of the first section takes one field off two
byte strings that agree and leaves what follows.  One byte is enough for the
length because senders are checked: at `maxSenderLength` the length is far from
wrapping around.

The number of digests in a batch is written too, in four bytes that would wrap
around for a list long enough.  Nothing rests on them: digests have one width,
so the list is read off its bytes anyway.

## How the kinds are told apart

A message starts with the version, and both tags start with a letter.  The two
tags agree in their first fourteen bytes and differ in the next.
-/

namespace QuorumRelay

/-! ## Peeling off a field -/

section Fields

variable {n width : Nat} {rest rest' : List UInt8}

/-- Two fields of one width end at the same place. -/
theorem append_inj_iff {field field' : List UInt8} (h : field.length = field'.length) :
    field ++ rest = field' ++ rest' ↔ field = field' ∧ rest = rest' := by
  constructor
  · exact fun heq => List.append_inj heq h
  · rintro ⟨rfl, rfl⟩
    rfl

theorem Bytes.append_inj {a b : Bytes n} :
    a.toList ++ rest = b.toList ++ rest' ↔ a = b ∧ rest = rest' := by
  rw [append_inj_iff (a.length_toList.trans b.length_toList.symm)]
  exact and_congr_left fun _ => ⟨Bytes.ext, congrArg Bytes.toList⟩

/-- A number that its bytes can hold is told by them. -/
theorem bigEndian_inj {a b : Nat} (ha : a < 256 ^ width) (hb : b < 256 ^ width) :
    bigEndian width a = bigEndian width b ↔ a = b := by
  constructor
  · intro h
    have hlittle : littleEndian width a = littleEndian width b := List.reverse_inj.1 h
    rw [← ofLittleEndian_littleEndian ha, hlittle, ofLittleEndian_littleEndian hb]
  · rintro rfl
    rfl

/-- A 32-bit number is told by four bytes or more. -/
theorem bigEndian_inj_u32 {a b : UInt32} (hwidth : 4 ≤ width) :
    bigEndian width a.toNat = bigEndian width b.toNat ↔ a = b := by
  have hpow : 256 ^ 4 ≤ 256 ^ width := Nat.pow_le_pow_right (by decide) hwidth
  rw [bigEndian_inj (Nat.lt_of_lt_of_le a.toNat_lt hpow) (Nat.lt_of_lt_of_le b.toNat_lt hpow),
    UInt32.toNat_inj]

/-- A 64-bit number is told by eight bytes or more. -/
theorem bigEndian_inj_u64 {a b : UInt64} (hwidth : 8 ≤ width) :
    bigEndian width a.toNat = bigEndian width b.toNat ↔ a = b := by
  have hpow : 256 ^ 8 ≤ 256 ^ width := Nat.pow_le_pow_right (by decide) hwidth
  rw [bigEndian_inj (Nat.lt_of_lt_of_le a.toNat_lt hpow) (Nat.lt_of_lt_of_le b.toNat_lt hpow),
    UInt64.toNat_inj]

theorem bigEndian_append_inj_u32 {a b : UInt32} (hwidth : 4 ≤ width) :
    bigEndian width a.toNat ++ rest = bigEndian width b.toNat ++ rest' ↔ a = b ∧ rest = rest' := by
  rw [append_inj_iff (by simp), bigEndian_inj_u32 hwidth]

theorem bigEndian_append_inj_u64 {a b : UInt64} (hwidth : 8 ≤ width) :
    bigEndian width a.toNat ++ rest = bigEndian width b.toNat ++ rest' ↔ a = b ∧ rest = rest' := by
  rw [append_inj_iff (by simp), bigEndian_inj_u64 hwidth]

/-- Bytes behind their length are told, where one byte holds the length. -/
theorem counted_append_inj {s t : List UInt8} (hs : s.length < 256) (ht : t.length < 256) :
    UInt8.ofNat s.length :: (s ++ rest) = UInt8.ofNat t.length :: (t ++ rest') ↔
      s = t ∧ rest = rest' := by
  constructor
  · intro h
    obtain ⟨hcount, h⟩ := List.cons.inj h
    have hlength : s.length = t.length := by
      rw [← UInt8.toNat_ofNat_of_lt' hs, hcount, UInt8.toNat_ofNat_of_lt' ht]
    exact List.append_inj h hlength
  · rintro ⟨rfl, rfl⟩
    rfl

/-- A row of digests is told by its bytes. -/
theorem flatMap_toList_inj {ds ds' : List (Bytes (n + 1))} :
    ds.flatMap Bytes.toList = ds'.flatMap Bytes.toList ↔ ds = ds' := by
  constructor
  · intro h
    induction ds generalizing ds' with
    | nil =>
      cases ds' with
      | nil => rfl
      | cons d' ds' =>
        have hlength := congrArg List.length h
        simp only [List.flatMap_nil, List.flatMap_cons, List.length_nil, List.length_append,
          d'.length_toList] at hlength
        omega
    | cons d ds ih =>
      cases ds' with
      | nil =>
        have hlength := congrArg List.length h
        simp only [List.flatMap_nil, List.flatMap_cons, List.length_nil, List.length_append,
          d.length_toList] at hlength
        omega
      | cons d' ds' =>
        rw [List.flatMap_cons, List.flatMap_cons, Bytes.append_inj] at h
        rw [h.1, ih h.2]
  · rintro rfl
    rfl

end Fields

theorem InboundMessage.check_eq_ok {m : InboundMessage} {u : Unit} :
    m.check = .ok u ↔ m.sender ≠ [] ∧ m.sender.length ≤ maxSenderLength := by
  unfold InboundMessage.check checkSender
  simp only [except_bind_eq_ok, require_eq_ok, exists_const]

namespace Digest

variable {hostChain hostChain' destinationChain destinationChain' : ChainId}
  {identity identity' : Address} {nonce nonce' : Nonce} {m m' : InboundMessage}
  {ds ds' : List Digest}

/-! ## Preimages of one kind -/

/-- **The preimage of a message tells every field**, and of the payload its hash. -/
theorem messagePreimage_inj (hm : m.check = .ok ()) (hm' : m'.check = .ok ()) :
    messagePreimage hostChain identity m = messagePreimage hostChain' identity' m' ↔
      hostChain = hostChain' ∧ identity = identity' ∧ m.sourceChain = m'.sourceChain ∧
        m.sourceNonce = m'.sourceNonce ∧ m.sender = m'.sender ∧ m.destination = m'.destination ∧
        keccak256 m.payload = keccak256 m'.payload ∧ m.value = m'.value ∧
        m.computeBudget = m'.computeBudget := by
  have hs : m.sender.length < 256 :=
    Nat.lt_of_le_of_lt (InboundMessage.check_eq_ok.1 hm).2 (by decide)
  have hs' : m'.sender.length < 256 :=
    Nat.lt_of_le_of_lt (InboundMessage.check_eq_ok.1 hm').2 (by decide)
  unfold messagePreimage
  simp only [List.cons_append, List.append_assoc]
  rw [List.cons.injEq, and_iff_right rfl, bigEndian_append_inj_u32 (Nat.le_refl 4),
    Bytes.append_inj, bigEndian_append_inj_u32 (Nat.le_refl 4),
    bigEndian_append_inj_u64 (Nat.le_refl 8), counted_append_inj hs hs', Bytes.append_inj,
    Bytes.append_inj, bigEndian_append_inj_u64 (by decide), bigEndian_inj_u64 (Nat.le_refl 8)]

/-- **The preimage of a batch tells its digests**, their number and their order. -/
theorem batchPreimage_inj : batchPreimage ds = batchPreimage ds' ↔ ds = ds' := by
  constructor
  · intro h
    unfold batchPreimage at h
    rw [append_inj_iff (by simp)] at h
    exact flatMap_toList_inj.1 h.2
  · rintro rfl
    rfl

/-- **The preimage of a confirmation tells every field.** -/
theorem confirmationPreimage_inj :
    confirmationPreimage hostChain identity destinationChain nonce =
        confirmationPreimage hostChain' identity' destinationChain' nonce' ↔
      hostChain = hostChain' ∧ identity = identity' ∧ destinationChain = destinationChain' ∧
        nonce = nonce' := by
  unfold confirmationPreimage
  simp only [List.cons_append, List.append_assoc]
  rw [append_inj_iff rfl, and_iff_right rfl, List.cons.injEq, and_iff_right rfl,
    bigEndian_append_inj_u32 (Nat.le_refl 4), Bytes.append_inj,
    bigEndian_append_inj_u32 (Nat.le_refl 4), bigEndian_inj_u64 (Nat.le_refl 8)]

/-! ## Preimages of different kinds -/

theorem head?_batchTag : batchTag.head? = some 113 := by decide +kernel

theorem head?_confirmationTag : confirmationTag.head? = some 113 := by decide +kernel

/-- The tags part at their fifteenth byte. -/
theorem take_batchTag_ne : batchTag.take 15 ≠ confirmationTag.take 15 := by decide +kernel

theorem messagePreimage_ne_batchPreimage :
    messagePreimage hostChain identity m ≠ batchPreimage ds := by
  intro h
  have hhead := congrArg List.head? h
  simp [messagePreimage, batchPreimage, head?_batchTag, version] at hhead

theorem messagePreimage_ne_confirmationPreimage :
    messagePreimage hostChain identity m ≠
      confirmationPreimage hostChain' identity' destinationChain nonce := by
  intro h
  have hhead := congrArg List.head? h
  simp [messagePreimage, confirmationPreimage, head?_confirmationTag, version] at hhead

theorem batchPreimage_ne_confirmationPreimage :
    batchPreimage ds ≠ confirmationPreimage hostChain identity destinationChain nonce := by
  intro h
  have hlength : 15 ≤ batchTag.length ∧ 15 ≤ confirmationTag.length := by decide +kernel
  have htake := congrArg (List.take 15) h
  unfold batchPreimage confirmationPreimage at htake
  simp only [List.append_assoc] at htake
  rw [List.take_append_of_le_length hlength.1, List.take_append_of_le_length hlength.2] at htake
  exact take_batchTag_ne htake

/-! ## From preimages to digests -/

/-- What relayers sign, with all that goes into it. -/
inductive Subject where
  | message (hostChain : ChainId) (identity : Address) (m : InboundMessage)
  | batch (digests : List Digest)
  | confirmation (hostChain : ChainId) (identity : Address) (destinationChain : ChainId)
      (nonce : Nonce)

namespace Subject

/-- The bytes that are hashed. -/
def preimage : Subject → List UInt8
  | message hostChain identity m => messagePreimage hostChain identity m
  | batch digests => batchPreimage digests
  | confirmation hostChain identity destinationChain nonce =>
    confirmationPreimage hostChain identity destinationChain nonce

/-- The digest that is signed; a message has one if its shape is right. -/
def digest : Subject → Except Fault Digest
  | message hostChain identity m => ofMessage hostChain identity m
  | batch digests => .ok (ofBatch digests)
  | confirmation hostChain identity destinationChain nonce =>
    .ok (ofConfirmation hostChain identity destinationChain nonce)

/-- The bytes of which only the hash is in the preimage. -/
def payload? : Subject → Option (List UInt8)
  | message _ _ m => some m.payload
  | batch _ => none
  | confirmation .. => none

end Subject

/-- Two different byte strings have one hash. -/
def Collide (a b : List UInt8) : Prop := a ≠ b ∧ keccak256 a = keccak256 b

theorem ofMessage_eq_ok {d : Digest} :
    ofMessage hostChain identity m = .ok d ↔
      m.check = .ok () ∧ keccak256 (messagePreimage hostChain identity m) = d := by
  unfold ofMessage
  simp only [except_bind_eq_ok, except_pure_eq_ok]
  constructor
  · rintro ⟨_, hm, hhash⟩
    exact ⟨hm, hhash⟩
  · rintro ⟨hm, hhash⟩
    exact ⟨(), hm, hhash⟩

theorem Subject.eq_of_digest {a : Subject} {d : Digest} (h : a.digest = .ok d) :
    keccak256 a.preimage = d := by
  cases a with
  | message hostChain identity m => exact (ofMessage_eq_ok.1 h).2
  | batch digests => exact Except.ok.inj h
  | confirmation hostChain identity destinationChain nonce => exact Except.ok.inj h

/-- Subjects whose preimages agree are one subject, if their payloads do not collide. -/
theorem Subject.eq_or_collide_of_preimage {a b : Subject} {d d' : Digest} (ha : a.digest = .ok d)
    (hb : b.digest = .ok d') (h : a.preimage = b.preimage) :
    a = b ∨ ∃ p ∈ a.payload?, ∃ q ∈ b.payload?, Collide p q := by
  cases a with
  | message hostChain identity m =>
    cases b with
    | message hostChain' identity' m' =>
      obtain ⟨rfl, rfl, hsource, hnonce, hsender, hdestination, hpayload, hvalue, hbudget⟩ :=
        (messagePreimage_inj (ofMessage_eq_ok.1 ha).1 (ofMessage_eq_ok.1 hb).1).1 h
      by_cases hsame : m.payload = m'.payload
      · left
        cases m
        cases m'
        simp_all only
      · exact Or.inr ⟨_, rfl, _, rfl, hsame, hpayload⟩
    | batch digests => exact absurd h messagePreimage_ne_batchPreimage
    | confirmation => exact absurd h messagePreimage_ne_confirmationPreimage
  | batch digests =>
    cases b with
    | message => exact absurd h.symm messagePreimage_ne_batchPreimage
    | batch digests' =>
      left
      rw [batchPreimage_inj.1 h]
    | confirmation => exact absurd h batchPreimage_ne_confirmationPreimage
  | confirmation hostChain identity destinationChain nonce =>
    cases b with
    | message => exact absurd h.symm messagePreimage_ne_confirmationPreimage
    | batch => exact absurd h.symm batchPreimage_ne_confirmationPreimage
    | confirmation hostChain' identity' destinationChain' nonce' =>
      obtain ⟨rfl, rfl, rfl, rfl⟩ := confirmationPreimage_inj.1 h
      exact Or.inl rfl

/-! ## The whole -/

/-- **A digest binds what was signed.**  Preimages of one kind agree exactly if all that goes into
them does, preimages of different kinds never do, and two subjects of one digest are the same or
show two byte strings of one hash. -/
theorem binds_subject :
    (∀ (hostChain hostChain' : ChainId) (identity identity' : Address) (m m' : InboundMessage),
      m.check = .ok () → m'.check = .ok () →
      (messagePreimage hostChain identity m = messagePreimage hostChain' identity' m' ↔
        hostChain = hostChain' ∧ identity = identity' ∧ m.sourceChain = m'.sourceChain ∧
          m.sourceNonce = m'.sourceNonce ∧ m.sender = m'.sender ∧
          m.destination = m'.destination ∧ keccak256 m.payload = keccak256 m'.payload ∧
          m.value = m'.value ∧ m.computeBudget = m'.computeBudget)) ∧
    (∀ ds ds' : List Digest, batchPreimage ds = batchPreimage ds' ↔ ds = ds') ∧
    (∀ (hostChain hostChain' : ChainId) (identity identity' : Address)
      (destinationChain destinationChain' : ChainId) (nonce nonce' : Nonce),
      confirmationPreimage hostChain identity destinationChain nonce =
          confirmationPreimage hostChain' identity' destinationChain' nonce' ↔
        hostChain = hostChain' ∧ identity = identity' ∧ destinationChain = destinationChain' ∧
          nonce = nonce') ∧
    (∀ (hostChain hostChain' destinationChain : ChainId) (identity identity' : Address)
      (m : InboundMessage) (ds : List Digest) (nonce : Nonce),
      messagePreimage hostChain identity m ≠ batchPreimage ds ∧
      messagePreimage hostChain identity m ≠
        confirmationPreimage hostChain' identity' destinationChain nonce ∧
      batchPreimage ds ≠ confirmationPreimage hostChain' identity' destinationChain nonce) ∧
    ∀ (a b : Subject) (d : Digest), a.digest = .ok d → b.digest = .ok d →
      a = b ∨ Collide a.preimage b.preimage ∨ ∃ p ∈ a.payload?, ∃ q ∈ b.payload?, Collide p q := by
  refine ⟨fun _ _ _ _ _ _ hm hm' => messagePreimage_inj hm hm', fun _ _ => batchPreimage_inj,
    fun _ _ _ _ _ _ _ _ => confirmationPreimage_inj, fun _ _ _ _ _ _ _ _ =>
      ⟨messagePreimage_ne_batchPreimage, messagePreimage_ne_confirmationPreimage,
        batchPreimage_ne_confirmationPreimage⟩, fun a b d ha hb => ?_⟩
  by_cases hpreimage : a.preimage = b.preimage
  · exact (Subject.eq_or_collide_of_preimage ha hb hpreimage).imp_right Or.inr
  · have hhash := (Subject.eq_of_digest ha).trans (Subject.eq_of_digest hb).symm
    exact Or.inr (Or.inl ⟨hpreimage, hhash⟩)

/-- A sender that goes on with a zero byte is another sender, though the destination behind it
starts with zero bytes too. -/
theorem binds_sender_length :
    InboundMessage.check { sender := [1], destination := .replicate 20 0 } = .ok () ∧
      InboundMessage.check { sender := [1, 0], destination := .replicate 20 0 } = .ok () ∧
      messagePreimage 1 .zero { sender := [1], destination := .replicate 20 0 } ≠
        messagePreimage 1 .zero { sender := [1, 0], destination := .replicate 20 0 } := by
  refine ⟨rfl, rfl, fun h => ?_⟩
  obtain ⟨-, -, -, -, hsender, -⟩ := (binds_subject.1 1 1 .zero .zero _ _ rfl rfl).1 h
  exact absurd hsender (by decide)

end Digest
end QuorumRelay
