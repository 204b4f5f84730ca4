import QuorumRelay.Proofs.Conditions
import QuorumRelay.Proofs.Evidence

/-!
# The layout of Ed25519 data, read off the bytes

Reading Ed25519 data either gives all its signatures or refuses it.  This file
says which, for every byte string, without the reader: a record is seven 16-bit
integers, each of them two bytes at a place that can be computed
(`Evidence.field`); three of them have to be `0xFFFF`, the others are the places
of three stretches, and everything has to lie inside the data
(`Evidence.Placed`).  Then the record says the signature whose bytes those are
(`Evidence.Says`), whatever else they may be: stretches may overlap, or lie over
the records.

A stretch of no bytes has a place, too.  An empty message has to start inside the
data or at its end, and one that starts behind it is refused.

## Both directions

`Evidence.parse_eq_ok_iff` is exact, so it also says what is accepted.  Data that
was laid out for a list of signatures is accepted and says that list
(`Evidence.parse_encode`), as long as the places can be written in 16 bits.
-/

namespace QuorumRelay

/-- The block at a place of a list of blocks of one length. -/
theorem take_drop_flatMap {α β : Type} {g : α → List β} {k : Nat} (hg : ∀ a, (g a).length = k)
    {as : List α} {n : Nat} {a : α} (ha : as[n]? = some a) (rest : List β) :
    ((as.flatMap g ++ rest).drop (k * n)).take k = g a := by
  induction n generalizing as with
  | zero =>
    cases as with
    | nil => cases ha
    | cons b as =>
      obtain rfl : b = a := by simpa using ha
      rw [List.flatMap_cons, List.append_assoc]
      exact List.take_left' (hg b)
  | succ n ih =>
    cases as with
    | nil => cases ha
    | cons b as =>
      have hk : k * (n + 1) = k + k * n := by rw [Nat.mul_succ, Nat.add_comm]
      rw [List.flatMap_cons, List.append_assoc, hk, ← List.drop_drop, List.drop_left' (hg b)]
      exact ih (by simpa using ha)

namespace Codec

variable {α β : Type} {c : Codec α} {d : Codec β} {k l : Nat} {input : List UInt8}

/-- A codec that takes `k` bytes, whatever they are, and reads nothing else. -/
def Takes (c : Codec α) (k : Nat) : Prop :=
  ∀ input : List UInt8, k ≤ input.length → ∃ a, c.read input = .ok (a, input.drop k)

theorem takes_bytes (n : Nat) : (bytes n).Takes n := by
  intro input h
  refine ⟨⟨input.take n, by rw [List.length_take]; omega⟩, ?_⟩
  simp only [bytes, Bytes.split?, dif_pos h]

theorem Takes.map (h : c.Takes k) (view : α → β) (back : β → α) : (c.map view back).Takes k := by
  intro input hlen
  obtain ⟨a, ha⟩ := h input hlen
  exact ⟨view a, Faithful.read_map_eq_ok.2 ⟨a, ha, rfl⟩⟩

theorem Takes.pair (hc : c.Takes k) (hd : d.Takes l) : (c.pair d).Takes (k + l) := by
  intro input hlen
  obtain ⟨a, ha⟩ := hc input (by omega)
  obtain ⟨b, hb⟩ := hd (input.drop k) (by rw [List.length_drop]; omega)
  rw [List.drop_drop] at hb
  exact ⟨(a, b), Faithful.read_pair_eq_ok.2 ⟨input.drop k, ha, hb⟩⟩

theorem takes_u16 : u16.Takes 2 := (takes_bytes 2).map _ _

end Codec

namespace Evidence

variable {data : List UInt8} {n : Nat} {p : ProvenSignature} {proofs : List ProvenSignature}
  {r : Record} {f : Fault}

/-! ## The integers of a record -/

/-- The 16-bit integer with number `j` of record `n`, the little end first. -/
def field (data : List UInt8) (n j : Nat) : Nat :=
  ofLittleEndian ((data.drop (2 + 14 * n + 2 * j)).take 2)

theorem takes_record : Record.codec.Takes recordSize := by
  open Codec in
  exact (takes_u16.pair (takes_u16.pair (takes_u16.pair (takes_u16.pair (takes_u16.pair
    (takes_u16.pair takes_u16)))))).map _ _

/-- The seven integers of a record. -/
def Record.integers (r : Record) : List UInt16 :=
  [r.signatureOffset, r.signatureInstruction, r.keyOffset, r.keyInstruction, r.messageOffset,
    r.messageSize, r.messageInstruction]

theorem write_eq_flatMap (r : Record) :
    Record.codec.write r = r.integers.flatMap fun x => littleEndian 2 x.toNat := by
  rw [write_record]
  simp [Record.integers]

/-- **A record is read where its fourteen bytes are**, and every fourteen bytes are a record. -/
theorem recordAt_eq_ok_iff : recordAt data n = .ok r ↔
    (data.drop (2 + 14 * n)).take 14 = Record.codec.write r := by
  refine ⟨recordAt_eq_ok, fun h => ?_⟩
  have hlen := congrArg List.length h
  rw [length_write_record, List.length_take, List.length_drop, recordSize] at hlen
  have hslice : slice data (headerSize + n * recordSize) recordSize =
      .ok (Record.codec.write r) := by
    rw [slice, if_pos (by rw [headerSize, recordSize]; omega), headerSize, recordSize,
      Nat.mul_comm n 14, h]
  have hread : Record.codec.read (Record.codec.write r) = .ok (r, []) := by
    simpa using Record.faithful_codec.read_write trivial []
  rw [recordAt, hslice]
  simp [hread, bind, Except.bind, pure, Except.pure]

theorem exists_recordAt (h : 2 + 14 * n + 14 ≤ data.length) : ∃ r, recordAt data n = .ok r := by
  have hlen : ((data.drop (2 + 14 * n)).take 14).length = recordSize := by
    rw [List.length_take, List.length_drop, recordSize]
    omega
  obtain ⟨r, hr⟩ := takes_record _ (Nat.le_of_eq hlen.symm)
  rw [List.drop_of_length_le (Nat.le_of_eq hlen)] at hr
  refine ⟨r, recordAt_eq_ok_iff.2 ?_⟩
  rw [← Record.faithful_codec.write_of_read hr, List.append_nil]

/-- **The integers of a record stand where they are said to stand.** -/
theorem field_eq {j : Nat} {x : UInt16} (h : recordAt data n = .ok r)
    (hx : r.integers[j]? = some x) : field data n j = x.toNat := by
  have hj : j < 7 := (List.getElem?_eq_some_iff.1 hx).1
  have hwindow := congrArg (fun window => (window.drop (2 * j)).take 2) (recordAt_eq_ok_iff.1 h)
  rw [List.drop_take, List.take_take, List.drop_drop, Nat.min_eq_left (by omega), write_eq_flatMap,
    ← List.append_nil (List.flatMap _ _),
    take_drop_flatMap (fun x => length_littleEndian 2 x.toNat) hx] at hwindow
  rw [field, hwindow, ofLittleEndian_littleEndian x.toNat_lt]

/-! ## One signature -/

/-- **A record is in its place**: it lies inside the data, its three instruction numbers stand for
the instruction it is in, and the three stretches it names lie inside the data. -/
structure Placed (data : List UInt8) (n : Nat) : Prop where
  record : 2 + 14 * n + 14 ≤ data.length
  signatureInstruction : field data n 1 = 0xFFFF
  keyInstruction : field data n 3 = 0xFFFF
  messageInstruction : field data n 6 = 0xFFFF
  signature : field data n 0 + 64 ≤ data.length
  key : field data n 2 + 32 ≤ data.length
  message : field data n 4 + field data n 5 ≤ data.length

/-- **A record says a signature**: the three stretches it names are the bytes of the signature, of
the key and of the message. -/
structure Says (data : List UInt8) (n : Nat) (p : ProvenSignature) : Prop where
  signature : (data.drop (field data n 0)).take 64 = p.signature.toList
  key : (data.drop (field data n 2)).take 32 = p.publicKey.toList
  message : (data.drop (field data n 4)).take (field data n 5) = p.message

/-- **A record gives the signature that it says, if it is in its place.** -/
theorem signatureAt_eq_ok_iff : signatureAt data n = .ok p ↔ Placed data n ∧ Says data n p := by
  have hrecord : ∀ {r : Record}, recordAt data n = .ok r →
      field data n 0 = r.signatureOffset.toNat ∧ field data n 1 = r.signatureInstruction.toNat ∧
      field data n 2 = r.keyOffset.toNat ∧ field data n 3 = r.keyInstruction.toNat ∧
      field data n 4 = r.messageOffset.toNat ∧ field data n 5 = r.messageSize.toNat ∧
      field data n 6 = r.messageInstruction.toNat := fun hr =>
    ⟨field_eq hr rfl, field_eq hr rfl, field_eq hr rfl, field_eq hr rfl, field_eq hr rfl,
      field_eq hr rfl, field_eq hr rfl⟩
  have hhere : ∀ {x : UInt16}, x = here ↔ x.toNat = 0xFFFF := UInt16.toNat_inj.symm
  have hsize : (0 < 64) ∧ (0 < 32) := by decide
  rw [signatureAt]
  simp only [except_bind_eq_ok, except_pure_eq_ok, require_eq_ok, exists_const,
    bytesAt_eq_ok_iff hsize.1, bytesAt_eq_ok_iff hsize.2, slice_eq_ok_iff]
  constructor
  · rintro ⟨r, hr, ⟨hs, hk, hm⟩, signature, ⟨hsignature, hsbytes⟩, key, ⟨hkey, hkbytes⟩, message,
      ⟨hmessage, hmbytes⟩, rfl⟩
    obtain ⟨h0, h1, h2, h3, h4, h5, h6⟩ := hrecord hr
    have hlen := congrArg List.length (recordAt_eq_ok_iff.1 hr)
    rw [length_write_record, List.length_take, List.length_drop, recordSize] at hlen
    refine ⟨⟨by omega, h1 ▸ hhere.1 hs, h3 ▸ hhere.1 hk, h6 ▸ hhere.1 hm, h0 ▸ hsignature,
      h2 ▸ hkey, h4 ▸ h5 ▸ hmessage⟩, h0 ▸ hsbytes, h2 ▸ hkbytes, h4 ▸ h5 ▸ hmbytes⟩
  · rintro ⟨hplaced, hsaid⟩
    obtain ⟨r, hr⟩ := exists_recordAt hplaced.record
    obtain ⟨h0, h1, h2, h3, h4, h5, h6⟩ := hrecord hr
    refine ⟨r, hr, ⟨hhere.2 (h1 ▸ hplaced.signatureInstruction),
      hhere.2 (h3 ▸ hplaced.keyInstruction), hhere.2 (h6 ▸ hplaced.messageInstruction)⟩,
      p.signature, ⟨h0 ▸ hplaced.signature, h0 ▸ hsaid.signature⟩,
      p.publicKey, ⟨h2 ▸ hplaced.key, h2 ▸ hsaid.key⟩,
      p.message, ⟨h4 ▸ h5 ▸ hplaced.message, h4 ▸ h5 ▸ hsaid.message⟩, rfl⟩

theorem exists_said (h : Placed data n) : ∃ p, Says data n p := by
  have hlen : ∀ {offset size : Nat}, offset + size ≤ data.length →
      ((data.drop offset).take size).length = size := by
    intro offset size hle
    rw [List.length_take, List.length_drop]
    omega
  exact ⟨⟨⟨_, hlen h.key⟩, ⟨_, hlen h.signature⟩, _⟩, rfl, rfl, rfl⟩

/-- A record says one signature at most. -/
theorem Says.unique {q : ProvenSignature} (hp : Says data n p) (hq : Says data n q) : p = q := by
  have hkey : p.publicKey = q.publicKey := Bytes.ext (hp.key.symm.trans hq.key)
  have hsignature : p.signature = q.signature :=
    Bytes.ext (hp.signature.symm.trans hq.signature)
  have hmessage : p.message = q.message := hp.message.symm.trans hq.message
  cases p with
  | mk publicKey signature message =>
    cases q with
    | mk publicKey' signature' message' =>
      obtain rfl : publicKey = publicKey' := hkey
      obtain rfl : signature = signature' := hsignature
      obtain rfl : message = message' := hmessage
      rfl

theorem Says.size_eq (hp : Says data n p) (h : Placed data n) :
    field data n 5 = p.message.length := by
  rw [← hp.message, List.length_take, List.length_drop]
  exact (Nat.min_eq_left (by have := h.message; omega)).symm

/-- What is refused is refused as malformed, never for anything else. -/
theorem signatureAt_eq_error (h : signatureAt data n = .error f) :
    f = .refused .invalidEd25519Instruction := by
  have hslice : ∀ {offset size : Nat}, slice data offset size = .error f →
      f = .refused .invalidEd25519Instruction := by
    intro offset size h
    rw [slice] at h
    split at h
    · cases h
    · exact (Except.error.inj h).symm
  have hbytes : ∀ {offset size : Nat}, bytesAt size data offset = .error f →
      f = .refused .invalidEd25519Instruction := by
    intro offset size h
    rw [bytesAt] at h
    split at h
    · cases h
    · exact (Except.error.inj h).symm
  have hrecord : recordAt data n = .error f → f = .refused .invalidEd25519Instruction := by
    intro h
    rw [recordAt, except_bind_eq_error] at h
    rcases h with h | ⟨written, -, h⟩
    · exact hslice h
    · split at h
      · cases h
      · exact (Except.error.inj h).symm
  rw [signatureAt] at h
  simp only [except_bind_eq_error, require_eq_error] at h
  rcases h with h | ⟨r, -, ⟨-, h⟩ | ⟨-, -, h | ⟨signature, -, h | ⟨key, -, h | ⟨message, -, h⟩⟩⟩⟩⟩
  · exact hrecord h
  · exact h
  · exact hbytes h
  · exact hbytes h
  · exact hslice h
  · cases h

/-! ## All signatures -/

/-- How many records data announces. -/
def announced (data : List UInt8) : Nat := (data.headD 0).toNat

/-- **Data of the right layout**: the two bytes of its header are there, and every record that it
announces is in its place. -/
structure WellFormed (data : List UInt8) : Prop where
  header : 2 ≤ data.length
  placed : ∀ n < announced data, Placed data n

/-- The bytes of a signature are where the record says that they are. -/
theorem Written.says (h : Written data n p) :
    n < announced data ∧ Says data n p := by
  obtain ⟨count, padding, rest, hdata, hn⟩ := h.counted
  obtain ⟨signatureOffset, keyOffset, messageOffset, messageSize, hrecord, hsignature, hkey,
    hmessage, -⟩ := h.placed
  obtain ⟨r, hhere, rfl, rfl, rfl, rfl⟩ : ∃ r : Record, (r.signatureInstruction = here ∧
      r.keyInstruction = here ∧ r.messageInstruction = here) ∧
      r.signatureOffset = signatureOffset ∧ r.keyOffset = keyOffset ∧
      r.messageOffset = messageOffset ∧ r.messageSize = messageSize :=
    ⟨⟨signatureOffset, here, keyOffset, here, messageOffset, messageSize, here⟩, by simp⟩
  have hr : recordAt data n = .ok r :=
    recordAt_eq_ok_iff.2 (hrecord.trans (write_eq_layout hhere).symm)
  have h0 : field data n 0 = r.signatureOffset.toNat := field_eq hr rfl
  have h2 : field data n 2 = r.keyOffset.toNat := field_eq hr rfl
  have h4 : field data n 4 = r.messageOffset.toNat := field_eq hr rfl
  have h5 : field data n 5 = r.messageSize.toNat := field_eq hr rfl
  refine ⟨by rw [hdata]; exact hn, ?_, ?_, ?_⟩
  · rw [h0]
    exact hsignature
  · rw [h2]
    exact hkey
  · rw [h4, h5]
    exact hmessage

theorem parse_of_header (h : 2 ≤ data.length) :
    parse data = (List.range (announced data)).mapM (signatureAt data) := by
  match data, h with
  | _ :: _ :: _, _ => rfl

theorem parse_of_short (h : ¬ 2 ≤ data.length) : parse data = malformed := by
  match data with
  | [] => rfl
  | [_] => rfl
  | _ :: _ :: rest => exact absurd (Nat.le_add_left 2 rest.length) h

/-- **What is refused**: everything that is not of the right layout, for that reason. -/
theorem parse_eq_error_iff :
    parse data = .error f ↔ ¬ WellFormed data ∧ f = .refused .invalidEd25519Instruction := by
  by_cases hheader : 2 ≤ data.length
  · rw [parse_of_header hheader, except_mapM_eq_error]
    constructor
    · rintro ⟨before, n, after, hrange, -, hn⟩
      have hmem : n < announced data := by
        rw [← List.mem_range, hrange]
        exact List.mem_append_right _ List.mem_cons_self
      refine ⟨fun hwell => ?_, signatureAt_eq_error hn⟩
      obtain ⟨p, hp⟩ := exists_said (hwell.placed n hmem)
      rw [signatureAt_eq_ok_iff.2 ⟨hwell.placed n hmem, hp⟩] at hn
      cases hn
    · rintro ⟨hbad, rfl⟩
      cases hread : (List.range (announced data)).mapM (signatureAt data) with
      | error e =>
        obtain ⟨before, n, after, hrange, hbefore, hn⟩ := except_mapM_eq_error.1 hread
        obtain rfl := signatureAt_eq_error hn
        exact ⟨before, n, after, hrange, hbefore, hn⟩
      | ok proofs =>
        refine absurd ⟨hheader, fun n hn => ?_⟩ hbad
        have hn : (List.range (announced data))[n]? = some n := by simp [hn]
        obtain ⟨p, -, hp⟩ := forall₂_getElem? (except_mapM_eq_ok.1 hread) hn
        exact (signatureAt_eq_ok_iff.1 hp).1
  · rw [parse_of_short hheader, malformed, Except.error.injEq, eq_comm]
    exact (and_iff_right fun hwell => hheader hwell.header).symm

/-- Data of the right layout is accepted, and no other. -/
theorem exists_parse_iff : (∃ proofs, parse data = .ok proofs) ↔ WellFormed data := by
  cases h : parse data with
  | ok proofs =>
    refine iff_of_true ⟨proofs, rfl⟩ ?_
    by_contra hbad
    rw [parse_eq_error_iff.2 ⟨hbad, rfl⟩] at h
    cases h
  | error f => exact iff_of_false (by simp) (parse_eq_error_iff.1 h).1

/-- **What is accepted, and as what**: data of the right layout, as the signatures that its
records say, in their order. -/
theorem parse_eq_ok_iff : parse data = .ok proofs ↔ WellFormed data ∧
    proofs.length = announced data ∧ ∀ n p, proofs[n]? = some p → Says data n p := by
  constructor
  · intro h
    have hwell : WellFormed data := exists_parse_iff.1 ⟨proofs, h⟩
    rw [parse_of_header hwell.header, except_mapM_eq_ok] at h
    refine ⟨hwell, by rw [← h.length_eq, List.length_range], fun n p hp => ?_⟩
    obtain ⟨k, hk, hsaid⟩ := forall₂_getElem? h.flip hp
    obtain rfl : k = n := by
      obtain ⟨hlt, rfl⟩ := List.getElem?_eq_some_iff.1 hk
      rw [List.getElem_range]
    exact (signatureAt_eq_ok_iff.1 hsaid).2
  · rintro ⟨hwell, hlen, hsaid⟩
    rw [parse_of_header hwell.header, except_mapM_eq_ok, List.forall₂_iff_get]
    refine ⟨by rw [List.length_range, hlen], fun n hn hn' => ?_⟩
    rw [List.length_range] at hn
    rw [List.get_eq_getElem, List.get_eq_getElem, List.getElem_range, signatureAt_eq_ok_iff]
    exact ⟨hwell.placed n hn, hsaid n _ (List.getElem?_eq_getElem hn')⟩

/-! ## Laying out -/

/-- Where the bytes of a signature start in data laid out for a list of them: behind the header,
all records and the bytes of those before it. -/
def startOf (proofs : List ProvenSignature) (k : Nat) : Nat :=
  2 + 14 * proofs.length + ((proofs.take k).map fun p => 96 + p.message.length).sum

/-- **The places fit in their 16 bits**: of every signature the place of the message, which is the
last of the three, and the size of the message. -/
def PlacesFit (proofs : List ProvenSignature) : Prop :=
  ∀ k p, proofs[k]? = some p → startOf proofs k + 96 < 2 ^ 16 ∧ p.message.length < 2 ^ 16

theorem length_body (p : ProvenSignature) : (body p).length = 96 + p.message.length := by
  rw [body, List.length_append, List.length_append, p.publicKey.length_toList,
    p.signature.length_toList]

theorem length_recordsFrom (proofs : List ProvenSignature) (offset : Nat) :
    (recordsFrom proofs offset).length = proofs.length := by
  induction proofs generalizing offset with
  | nil => rfl
  | cons p proofs ih => rw [recordsFrom, List.length_cons, List.length_cons, ih]

/-- The record of each signature is for the place where the bodies before it end. -/
theorem getElem?_recordsFrom {k offset : Nat} (hp : proofs[k]? = some p) :
    (recordsFrom proofs offset)[k]? = some (recordFor p
      (offset + ((proofs.take k).map fun p => 96 + p.message.length).sum)) := by
  induction proofs generalizing k offset with
  | nil => cases hp
  | cons q proofs ih =>
    cases k with
    | zero =>
      obtain rfl : q = p := by simpa using hp
      rfl
    | succ k =>
      rw [recordsFrom, List.getElem?_cons_succ, ih (by simpa using hp), List.take_succ_cons,
        List.map_cons, List.sum_cons, length_body, Nat.add_assoc]

theorem encode_eq (proofs : List ProvenSignature) : encode proofs =
    UInt8.ofNat proofs.length :: 0 ::
      ((recordsFrom proofs (2 + 14 * proofs.length)).flatMap Record.codec.write ++
        proofs.flatMap body) := by
  rw [encode, headerSize, recordSize, Nat.mul_comm proofs.length]

theorem recordAt_encode {k : Nat} (hp : proofs[k]? = some p) :
    recordAt (encode proofs) k = .ok (recordFor p (startOf proofs k)) := by
  rw [recordAt_eq_ok_iff, encode_eq, Nat.add_comm, List.drop_succ_cons, List.drop_succ_cons]
  exact take_drop_flatMap length_write_record (getElem?_recordsFrom hp) _

/-- The bytes of a signature stand where they are said to start. -/
theorem drop_encode {k : Nat} (hp : proofs[k]? = some p) :
    (encode proofs).drop (startOf proofs k) = body p ++ (proofs.drop (k + 1)).flatMap body := by
  obtain ⟨hlt, rfl⟩ := List.getElem?_eq_some_iff.1 hp
  have hrecords : (UInt8.ofNat proofs.length :: 0 ::
      (recordsFrom proofs (2 + 14 * proofs.length)).flatMap Record.codec.write).length =
        2 + 14 * proofs.length := by
    rw [List.length_cons, List.length_cons, List.length_flatMap,
      List.map_congr_left fun r _ => length_write_record r, List.map_const', length_recordsFrom,
      List.sum_replicate_nat, recordSize, Nat.mul_comm]
    omega
  have hbodies : ((proofs.take k).flatMap body).length =
      ((proofs.take k).map fun p => 96 + p.message.length).sum := by
    rw [List.length_flatMap, List.map_congr_left fun p _ => length_body p]
  have hsplit : proofs.flatMap body = (proofs.take k).flatMap body ++
      (body proofs[k] ++ (proofs.drop (k + 1)).flatMap body) := by
    rw [← List.flatMap_cons, ← List.drop_eq_getElem_cons hlt, ← List.flatMap_append,
      List.take_append_drop]
  rw [encode_eq, startOf, ← List.drop_drop, ← List.cons_append, ← List.cons_append,
    List.drop_left' hrecords, hsplit, List.drop_left' hbodies]

/-- **Data that was laid out for a list of signatures says that list.** -/
theorem parse_encode (hcount : proofs.length ≤ 255) (hfit : PlacesFit proofs) :
    parse (encode proofs) = .ok proofs := by
  have hannounced : announced (encode proofs) = proofs.length := by
    rw [encode_eq]
    exact UInt8.toNat_ofNat_of_lt' (Nat.lt_succ_of_le hcount)
  have hone : ∀ {k p}, proofs[k]? = some p →
      Placed (encode proofs) k ∧ Says (encode proofs) k p := by
    intro k p hp
    obtain ⟨hplace, hsize⟩ := hfit k p hp
    have hr := recordAt_encode hp
    have hbody := drop_encode hp
    have hnat : ∀ {m : Nat}, m < 2 ^ 16 → (UInt16.ofNat m).toNat = m := fun h =>
      UInt16.toNat_ofNat_of_lt' h
    have h0 : field (encode proofs) k 0 = startOf proofs k + 32 :=
      (field_eq hr rfl).trans (hnat (by omega))
    have h2 : field (encode proofs) k 2 = startOf proofs k :=
      (field_eq hr rfl).trans (hnat (by omega))
    have h4 : field (encode proofs) k 4 = startOf proofs k + 96 :=
      (field_eq hr rfl).trans (hnat (by omega))
    have h5 : field (encode proofs) k 5 = p.message.length :=
      (field_eq hr rfl).trans (hnat hsize)
    have hlen := congrArg List.length hbody
    rw [List.length_drop, List.length_append, length_body] at hlen
    have hwindow := congrArg List.length (recordAt_eq_ok_iff.1 hr)
    rw [length_write_record, List.length_take, List.length_drop, recordSize] at hwindow
    have hhere : here.toNat = 0xFFFF := by decide
    have h1 : field (encode proofs) k 1 = 0xFFFF := (field_eq hr rfl).trans hhere
    have h3 : field (encode proofs) k 3 = 0xFFFF := (field_eq hr rfl).trans hhere
    have h6 : field (encode proofs) k 6 = 0xFFFF := (field_eq hr rfl).trans hhere
    refine ⟨⟨by omega, h1, h3, h6, by omega, by omega, by omega⟩, ?_, ?_, ?_⟩
    · rw [h0, ← List.drop_drop, hbody, body, List.append_assoc, List.append_assoc,
        List.drop_left' p.publicKey.length_toList, List.take_left' p.signature.length_toList]
    · rw [h2, hbody, body, List.append_assoc, List.append_assoc,
        List.take_left' p.publicKey.length_toList]
    · have hkeys : (p.publicKey.toList ++ p.signature.toList).length = 96 := by
        rw [List.length_append, p.publicKey.length_toList, p.signature.length_toList]
      rw [h4, h5, ← List.drop_drop, hbody, body, List.append_assoc, List.drop_left' hkeys,
        List.take_left]
  refine parse_eq_ok_iff.2 ⟨⟨?_, fun n hn => ?_⟩, hannounced.symm, fun n p hp => (hone hp).2⟩
  · rw [encode_eq]
    exact Nat.le_add_left 2 _
  · rw [hannounced] at hn
    exact (hone (List.getElem?_eq_getElem hn)).1

end Evidence
end QuorumRelay
