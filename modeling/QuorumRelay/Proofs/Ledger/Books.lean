import Mathlib.Logic.Function.Basic
import QuorumRelay.Ledger.Access
import QuorumRelay.Proofs.Codec.Records

/-!
# The books behind the bytes

A ledger holds bytes; the program means records.  This file is the passage from
one to the other.  A *place* is an account derived from the program's own seeds,
and each place holds records of one kind.  The *books* of a ledger say, for each
place, which record its account holds, if it holds one.

## What is proved here

* `entry_eq_some_iff`: the record at a place is what the account's bytes start
  with, and nothing else reads as that record.
* `books_write`: writing a record changes the books at its place and nowhere
  else.  Writes at different places cannot be confused, since places are named
  by their seeds (`Place.id_injective`).
* `eq_of_discriminator_eq`: places of different kinds have different
  discriminators, so an account never holds records of two kinds.

## Accounts that others made

Anyone can hand an account filled with zeros to the program.  Such an account is
owned by the program without being at a place, and it has to be told apart from
the program's own: its first eight bytes are zero, and no discriminator is.
`Kept` is the resulting invariant: what the program owns is blank, or it sits at
a place and starts with the discriminator of that place.
-/

namespace QuorumRelay

open Codec (Faithful)

/-! ## Places -/

/-- Where the program keeps a record: an account derived from its own seeds. -/
inductive Place where
  | bridge
  | vault
  | roster
  | chain (id : ChainId)
  | outbound (nonce : Nonce)
  | receipt (digest : Digest)
  | cursor (source : ChainId) (senderKey : Digest)
  | sponsor (owner : Key)
  deriving DecidableEq

namespace Place

/-- What is kept at a place. -/
@[reducible] def Value : Place → Type
  | bridge => Bridge
  | vault => Vault
  | roster => Roster
  | chain _ => Chain
  | outbound _ => OutboundMessage
  | receipt _ => Receipt
  | cursor _ _ => Cursor
  | sponsor _ => Sponsor

/-- The account of a place. -/
@[reducible] def id : Place → AccountId
  | bridge => .bridge
  | vault => .vault
  | roster => .roster
  | chain id => .chain id
  | outbound nonce => .outbound nonce
  | receipt digest => .receipt digest
  | cursor source senderKey => .cursor source senderKey
  | sponsor owner => .sponsor owner

/-- The kind of record that is kept at a place. -/
@[reducible] def record : (p : Place) → Record p.Value
  | bridge => Bridge.record
  | vault => Vault.record
  | roster => Roster.record
  | chain _ => Chain.record
  | outbound _ => OutboundMessage.record
  | receipt _ => Receipt.record
  | cursor _ _ => Cursor.record
  | sponsor _ => Sponsor.record

/-- The records whose lists are short enough to be written. -/
def Fits : (p : Place) → p.Value → Prop
  | bridge, _ => True
  | vault, _ => True
  | roster, r => r.slots.length < 2 ^ 32
  | chain _, _ => True
  | outbound _, m => m.payload.length < 2 ^ 32
  | receipt _, _ => True
  | cursor _ _, _ => True
  | sponsor _, s => s.targets.length < 2 ^ 32

theorem faithful (p : Place) : p.record.codec.Faithful p.Fits :=
  match p with
  | bridge => Bridge.faithful_codec
  | vault => Vault.faithful_codec
  | roster => Roster.faithful_codec
  | chain _ => Chain.faithful_codec
  | outbound _ => OutboundMessage.faithful_codec
  | receipt _ => Receipt.faithful_codec
  | cursor _ _ => Cursor.faithful_codec
  | sponsor _ => Sponsor.faithful_codec

/-- **Places are their accounts.**  Different seeds are different accounts. -/
theorem id_injective : Function.Injective id := by
  intro p q h
  cases p <;> cases q <;> cases h <;> rfl

/-! ## Names and discriminators -/

@[simp] theorem name_bridge : Bridge.record.name = "BridgeConfig" := rfl
@[simp] theorem name_vault : Vault.record.name = "Vault" := rfl
@[simp] theorem name_roster : Roster.record.name = "RelayerSet" := rfl
@[simp] theorem name_chain : Chain.record.name = "ChainConfig" := rfl
@[simp] theorem name_outbound : OutboundMessage.record.name = "OutboundMessage" := rfl
@[simp] theorem name_receipt : Receipt.record.name = "ProcessedReceipt" := rfl
@[simp] theorem name_cursor : Cursor.record.name = "SenderCursor" := rfl
@[simp] theorem name_sponsor : Sponsor.record.name = "SponsorAccount" := rfl

/-- The eight kinds of records have eight different discriminators, none of them zero. -/
theorem discriminators_nodup :
    [Bridge.record.discriminator, Vault.record.discriminator, Roster.record.discriminator,
      Chain.record.discriminator, OutboundMessage.record.discriminator,
      Receipt.record.discriminator, Cursor.record.discriminator, Sponsor.record.discriminator,
      Bytes.zero].Nodup := by
  decide +kernel

/-- **A discriminator tells the kind.**  Places with one discriminator keep records of one
kind, which the record's name stands for here. -/
theorem name_eq_of_discriminator_eq {p q : Place}
    (h : p.record.discriminator = q.record.discriminator) : p.record.name = q.record.name := by
  have hnodup := discriminators_nodup
  simp only [List.nodup_cons, List.mem_cons, List.not_mem_nil, or_false, not_or] at hnodup
  obtain ⟨h0, h1, h2, h3, h4, h5, h6, h7, -⟩ := hnodup
  cases p <;> cases q <;> first | rfl | (exfalso; simp_all [eq_comm])

/-- No discriminator is zero. -/
theorem discriminator_ne_zero (p : Place) : p.record.discriminator ≠ Bytes.zero := by
  have hnodup := discriminators_nodup
  simp only [List.nodup_cons, List.mem_cons, List.not_mem_nil, or_false, not_or] at hnodup
  cases p <;> simp_all

end Place

/-! ## Books -/

/-- What is held at each place. -/
abbrev Books : Type := (p : Place) → Option p.Value

namespace Books

variable {books : Books} {p q : Place}

/-- The books with one more record. -/
def put (books : Books) (p : Place) (v : p.Value) : Books :=
  Function.update books p (some v)

@[simp] theorem put_self (books : Books) (p : Place) (v : p.Value) : books.put p v p = some v :=
  Function.update_self ..

theorem put_of_ne (books : Books) (v : p.Value) (h : q ≠ p) : books.put p v q = books q :=
  Function.update_of_ne h ..

/-- **Receipts are where their digests say**, and none is the zero digest's. -/
def Bound (books : Books) : Prop :=
  ∀ d r, books (.receipt d) = some r → r.digest = d ∧ d ≠ .zero

/-- A record that is there, or is blank because none is. -/
def Holds (books : Books) (p : Place) (v : p.Value) : Prop :=
  books p = some v ∨ books p = none ∧ v = p.record.blank

end Books

/-! ## Reading an account -/

/-- A record is in an account exactly when the program owns the account and the record's
written form starts its data. -/
theorem Record.load_eq_ok_iff {α : Type} {r : Record α} {F : α → Prop}
    (hr : r.codec.Faithful F) {a : Account} {v : α} :
    r.load a = .ok v ↔ a.owner = .bridgeProgram ∧ F v ∧ ∃ rest, a.data = r.write v ++ rest := by
  constructor
  · intro h
    unfold Record.load at h
    split at h
    · cases h
    split at h
    · cases h
    rename_i howner
    have howner : a.owner = .bridgeProgram := not_not.1 howner
    unfold Record.read at h
    split at h
    · cases h
    rename_i hlen
    split at h
    · cases h
    rename_i htag
    unfold Record.readUnchecked at h
    cases hc : r.codec.read (a.data.drop discriminatorSize) with
    | error e => simp [hc] at h
    | ok found =>
      obtain ⟨w, rest⟩ := found
      simp only [hc, Except.ok.injEq] at h
      subst h
      refine ⟨howner, hr.fits_of_read hc, rest, ?_⟩
      have htag' : a.data.take discriminatorSize = r.discriminator.toList := not_not.1 htag
      rw [Record.write, List.append_assoc, hr.write_of_read hc, ← htag', List.take_append_drop]
  · rintro ⟨howner, hfits, rest, hdata⟩
    have hlen : r.discriminator.toList.length = discriminatorSize := r.discriminator.length_toList
    have hdata' : a.data = r.discriminator.toList ++ (r.codec.write v ++ rest) := by
      rw [hdata, Record.write, List.append_assoc]
    unfold Record.load
    rw [if_neg (by simp [howner]), if_neg (by simp [howner])]
    unfold Record.read
    rw [if_neg (by rw [hdata', List.length_append, hlen]; omega), if_neg (by
      rw [hdata', ← hlen, List.take_left]; simp)]
    unfold Record.readUnchecked
    rw [hdata', ← hlen, List.drop_left, hr.read_write hfits]

namespace Ledger

/-- The record at a place, if its account holds one. -/
def entry (l : Ledger) (p : Place) : Option p.Value :=
  (p.record.load (l.account p.id)).toOption

/-- What the ledger holds at each place. -/
def books (l : Ledger) : Books := l.entry

/-- The program owns an account. -/
def Owns (l : Ledger) (id : AccountId) : Prop := (l.account id).owner = .bridgeProgram

variable {l l' : Ledger} {p q : Place}

theorem entry_eq_some_iff {v : p.Value} :
    l.entry p = some v ↔
      l.Owns p.id ∧ p.Fits v ∧ ∃ rest, (l.account p.id).data = p.record.write v ++ rest := by
  rw [Owns, ← Record.load_eq_ok_iff p.faithful, entry]
  cases p.record.load (l.account p.id) <;> simp [Except.toOption]

theorem entry_of_load {v : p.Value} (h : p.record.load (l.account p.id) = .ok v) :
    l.entry p = some v := by
  rw [entry, h]
  rfl

theorem load_of_entry {v : p.Value} (h : l.entry p = some v) :
    p.record.load (l.account p.id) = .ok v := by
  obtain ⟨howns, hfits, hdata⟩ := entry_eq_some_iff.1 h
  exact (Record.load_eq_ok_iff p.faithful).2 ⟨howns, hfits, hdata⟩

theorem load_bridge {b : Bridge} (h : l.books .bridge = some b) :
    Bridge.record.load (l.account .bridge) = .ok b :=
  load_of_entry (p := .bridge) h

theorem load_chain {n : ChainId} {c : Chain} (h : l.books (.chain n) = some c) :
    Chain.record.load (l.account (.chain n)) = .ok c :=
  load_of_entry (p := .chain n) h

theorem load_outbound {n : Nonce} {m : OutboundMessage} (h : l.books (.outbound n) = some m) :
    OutboundMessage.record.load (l.account (.outbound n)) = .ok m :=
  load_of_entry (p := .outbound n) h

theorem load_receipt {d : Digest} {r : Receipt} (h : l.books (.receipt d) = some r) :
    Receipt.record.load (l.account (.receipt d)) = .ok r :=
  load_of_entry (p := .receipt d) h

theorem load_cursor {source : ChainId} {senderKey : Digest} {c : Cursor}
    (h : l.books (.cursor source senderKey) = some c) :
    Cursor.record.load (l.account (.cursor source senderKey)) = .ok c :=
  load_of_entry (p := .cursor source senderKey) h

theorem load_sponsor {owner : Key} {s : Sponsor} (h : l.books (.sponsor owner) = some s) :
    Sponsor.record.load (l.account (.sponsor owner)) = .ok s :=
  load_of_entry (p := .sponsor owner) h

/-- A record that is there fits. -/
theorem fits_of_entry {v : p.Value} (h : l.entry p = some v) : p.Fits v :=
  (entry_eq_some_iff.1 h).2.1

theorem owns_of_entry {v : p.Value} (h : l.entry p = some v) : l.Owns p.id :=
  (entry_eq_some_iff.1 h).1

/-- Where the program owns nothing there is no record. -/
theorem entry_eq_none_of_not_owns (h : ¬ l.Owns p.id) : l.entry p = none := by
  cases he : l.entry p with
  | none => rfl
  | some v => exact absurd (owns_of_entry he) h

/-- An account filled with zeros holds no record. -/
theorem entry_eq_none_of_blank (h : ∀ b ∈ (l.account p.id).data, b = 0) : l.entry p = none := by
  cases he : l.entry p with
  | none => rfl
  | some v =>
    exfalso
    obtain ⟨-, -, rest, hdata⟩ := entry_eq_some_iff.1 he
    refine p.discriminator_ne_zero (Bytes.ext ?_)
    have hzero : ∀ b ∈ p.record.discriminator.toList, b = 0 := by
      intro b hb
      refine h b ?_
      rw [hdata, Record.write]
      exact List.mem_append_left _ (List.mem_append_left _ hb)
    rw [List.eq_replicate_of_mem hzero, p.record.discriminator.length_toList]
    rfl

/-- The record at a place depends on the account's owner and data alone. -/
theorem entry_congr (howner : (l'.account p.id).owner = (l.account p.id).owner)
    (hdata : (l'.account p.id).data = (l.account p.id).data) : l'.entry p = l.entry p := by
  apply Option.ext
  intro v
  rw [entry_eq_some_iff, entry_eq_some_iff, Owns, Owns, howner, hdata]

/-! ## Writing a record -/

/-- Write a record over the start of the account at a place. -/
def write (l : Ledger) (p : Place) (v : p.Value) : Ledger :=
  l.put p.id { l.account p.id with
    data := p.record.write v ++ (l.account p.id).data.drop (p.record.write v).length }

@[simp] theorem lamports_write (l : Ledger) (p : Place) (v : p.Value) (id : AccountId) :
    ((l.write p v).account id).lamports = (l.account id).lamports := by
  by_cases h : id = p.id
  · subst h
    rw [write, account_put_self]
  · rw [write, account_put_of_ne _ _ h]

@[simp] theorem owner_write (l : Ledger) (p : Place) (v : p.Value) (id : AccountId) :
    ((l.write p v).account id).owner = (l.account id).owner := by
  by_cases h : id = p.id
  · subst h
    rw [write, account_put_self]
  · rw [write, account_put_of_ne _ _ h]

@[simp] theorem owns_write {v : p.Value} {id : AccountId} : (l.write p v).Owns id ↔ l.Owns id := by
  rw [Owns, Owns, owner_write]

theorem account_write_of_ne {v : p.Value} {id : AccountId} (h : id ≠ p.id) :
    (l.write p v).account id = l.account id :=
  account_put_of_ne _ _ h

/-- A record that is no longer than the account leaves its size. -/
theorem length_data_write {v : p.Value}
    (h : (p.record.write v).length ≤ (l.account p.id).data.length) :
    ((l.write p v).account p.id).data.length = (l.account p.id).data.length := by
  rw [write, account_put_self]
  simp only [List.length_append, List.length_drop]
  omega

/-- **A record that was written is there**, if the program owns the account. -/
theorem entry_write_self {v : p.Value} (ho : l.Owns p.id) (hv : p.Fits v) :
    (l.write p v).entry p = some v := by
  refine entry_eq_some_iff.2
    ⟨owns_write.2 ho, hv, (l.account p.id).data.drop (p.record.write v).length, ?_⟩
  rw [write, account_put_self]

/-- **No other record changes.** -/
theorem entry_write_of_ne (h : q ≠ p) (v : p.Value) : (l.write p v).entry q = l.entry q := by
  have hid : q.id ≠ p.id := fun hid => h (Place.id_injective hid)
  unfold entry
  rw [account_write_of_ne hid]

/-- Writing a record is writing one entry of the books. -/
theorem books_write {v : p.Value} (ho : l.Owns p.id) (hv : p.Fits v) :
    (l.write p v).books = l.books.put p v := by
  funext q
  by_cases h : q = p
  · subst h
    rw [Books.put_self]
    exact entry_write_self ho hv
  · rw [Books.put_of_ne _ _ h]
    exact entry_write_of_ne h v

/-! ## What the program owns -/

/-- What the program owns is blank, or sits at a place and starts with the discriminator of
that place. -/
def Kept (l : Ledger) : Prop :=
  ∀ id, l.Owns id → (∀ b ∈ (l.account id).data, b = 0) ∨
    ∃ p : Place, p.id = id ∧ p.record.discriminator.toList <+: (l.account id).data

/-- **A record is found only at a place of its kind**, wherever it is looked for. -/
theorem Kept.exists_place_of_load (hk : l.Kept) {q : Place} {id : AccountId} {v : q.Value}
    (h : q.record.load (l.account id) = .ok v) :
    ∃ p : Place, p.id = id ∧ p.record.name = q.record.name := by
  obtain ⟨howner, -, rest, hdata⟩ := (Record.load_eq_ok_iff q.faithful).1 h
  have hstarts : q.record.discriminator.toList <+: (l.account id).data :=
    ⟨q.record.codec.write v ++ rest, by rw [hdata, Record.write, List.append_assoc]⟩
  rcases hk id howner with hblank | ⟨p, hp, hstarts'⟩
  · exfalso
    refine q.discriminator_ne_zero (Bytes.ext ?_)
    rw [List.eq_replicate_of_mem fun b hb => hblank b (hstarts.subset hb),
      q.record.discriminator.length_toList]
    rfl
  · refine ⟨p, hp, Place.name_eq_of_discriminator_eq (Bytes.ext ?_)⟩
    have hlen : p.record.discriminator.toList.length = q.record.discriminator.toList.length := by
      rw [p.record.discriminator.length_toList, q.record.discriminator.length_toList]
    exact List.IsPrefix.eq_of_length
      (List.prefix_of_prefix_length_le hstarts' hstarts (Nat.le_of_eq hlen)) hlen

/-- A receipt is found only at the place of a receipt. -/
theorem Kept.exists_digest_of_load (hk : l.Kept) {id : AccountId} {r : Receipt}
    (h : Receipt.record.load (l.account id) = .ok r) : ∃ d, id = .receipt d := by
  obtain ⟨p, rfl, hname⟩ := hk.exists_place_of_load (q := .receipt .zero) h
  cases p with
  | receipt d => exact ⟨d, rfl⟩
  | _ => simp at hname

/-- A cursor is found only at the place of a cursor. -/
theorem Kept.exists_sender_of_load (hk : l.Kept) {id : AccountId} {c : Cursor}
    (h : Cursor.record.load (l.account id) = .ok c) :
    ∃ source senderKey, id = .cursor source senderKey := by
  obtain ⟨p, rfl, hname⟩ := hk.exists_place_of_load (q := .cursor 0 .zero) h
  cases p with
  | cursor source senderKey => exact ⟨source, senderKey, rfl⟩
  | _ => simp at hname

/-- A chain's record is found only at the place of a chain. -/
theorem Kept.exists_chain_of_load (hk : l.Kept) {id : AccountId} {c : Chain}
    (h : Chain.record.load (l.account id) = .ok c) : ∃ n, id = .chain n := by
  obtain ⟨p, rfl, hname⟩ := hk.exists_place_of_load (q := .chain 0) h
  cases p with
  | chain n => exact ⟨n, rfl⟩
  | _ => simp at hname

/-- An outbound message is found only at the place of a nonce. -/
theorem Kept.exists_nonce_of_load (hk : l.Kept) {id : AccountId} {m : OutboundMessage}
    (h : OutboundMessage.record.load (l.account id) = .ok m) : ∃ n, id = .outbound n := by
  obtain ⟨p, rfl, hname⟩ := hk.exists_place_of_load (q := .outbound 0) h
  cases p with
  | outbound n => exact ⟨n, rfl⟩
  | _ => simp at hname

/-- A sponsor is found only at the place of an owner. -/
theorem Kept.exists_owner_of_load (hk : l.Kept) {id : AccountId} {s : Sponsor}
    (h : Sponsor.record.load (l.account id) = .ok s) : ∃ owner, id = .sponsor owner := by
  obtain ⟨p, rfl, hname⟩ := hk.exists_place_of_load (q := .sponsor .zero) h
  cases p with
  | sponsor owner => exact ⟨owner, rfl⟩
  | _ => simp at hname

/-- Only the account of a digest's place can be given for a receipt of the digest. -/
theorem Kept.receipt_of_load (hk : l.Kept) (hbound : l.books.Bound) {id : AccountId} {r : Receipt}
    (h : Receipt.record.load (l.account id) = .ok r) :
    id = .receipt r.digest ∧ l.books (.receipt r.digest) = some r := by
  obtain ⟨d, rfl⟩ := hk.exists_digest_of_load h
  have hbooks : l.books (.receipt d) = some r := entry_of_load (p := .receipt d) h
  obtain rfl := (hbound d r hbooks).1
  exact ⟨rfl, hbooks⟩

theorem Kept.write (hk : l.Kept) (p : Place) (v : p.Value) : (l.write p v).Kept := by
  intro id howns
  by_cases h : id = p.id
  · subst h
    refine Or.inr ⟨p, rfl, ?_⟩
    rw [Ledger.write, account_put_self, Record.write, List.append_assoc]
    exact List.prefix_append _ _
  · rw [account_write_of_ne h]
    exact hk id (owns_write.1 howns)

end Ledger
end QuorumRelay
