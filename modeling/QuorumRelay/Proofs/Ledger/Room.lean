import QuorumRelay.Proofs.Codec.Sizes
import QuorumRelay.Proofs.Ledger.Money

/-!
# Room for records

An account never changes its size, and a record that stands in it may.  `Ledger.Room` says
that an account is as large as it is made for a record at its place, and that the record is
one the program lets come about: a roster with no more slots than it may have, a sponsor
with no more destinations, a message whose length can be written.  Such a record fits into
its account (`Ledger.Room.length_le`).

A ledger is `Ledger.Roomy` if there is room for every record on it.  What happens between
two writes keeps that, since the accounts of the program keep their sizes
(`Ledger.SameSizes`) and those it gets are blank; and writing a record keeps it where there
is room for that record.
-/

namespace QuorumRelay

namespace Place

/-- The records with lists as long as the program lets them grow. -/
def Bounded : (p : Place) → p.Value → Prop
  | bridge, _ => True
  | vault, _ => True
  | roster, r => r.slots.length ≤ maxRelayers
  | chain _, _ => True
  | outbound _, m => m.payload.length < 2 ^ 32
  | receipt _, _ => True
  | cursor _ _, _ => True
  | sponsor _, s => s.targets.length ≤ maxSponsoredTargets

/-- Bytes that the account of a record is created with: the largest record of its kind, and for
a message what its own payload takes. -/
def space : (p : Place) → p.Value → Nat
  | bridge, _ => Bridge.record.size
  | vault, _ => Vault.record.size
  | roster, _ => Roster.record.size
  | chain _, _ => Chain.record.size
  | outbound _, m => OutboundMessage.sizeFor m.payload.length
  | receipt _, _ => Receipt.record.size
  | cursor _ _, _ => Cursor.record.size
  | sponsor _, _ => Sponsor.record.size

variable {p : Place} {v : p.Value}

/-- Lists that short can be written. -/
theorem Bounded.fits (h : p.Bounded v) : p.Fits v := by
  cases p with
  | roster => exact Nat.lt_of_le_of_lt h (by decide)
  | sponsor => exact Nat.lt_of_le_of_lt h (by decide)
  | outbound => exact h
  | _ => trivial

/-- **A record takes no more than the space that its account is created with.** -/
theorem Bounded.length_write_le (h : p.Bounded v) : (p.record.write v).length ≤ p.space v := by
  cases p with
  | bridge => exact Nat.le_of_eq (Bridge.length_write v)
  | vault => exact Nat.le_of_eq (Vault.record.length_write v)
  | roster => exact Roster.length_write_le h
  | chain => exact Nat.le_of_eq (Chain.length_write v)
  | outbound => exact OutboundMessage.length_write_le v
  | receipt => exact Nat.le_of_eq (Receipt.length_write v)
  | cursor => exact Cursor.length_write_le v
  | sponsor => exact Sponsor.length_write_le h

/-- **The space is not too large either:** another record that the program lets come about, with
lists that are full, fills it. -/
theorem Bounded.exists_filling (h : p.Bounded v) :
    ∃ w, p.Bounded w ∧ p.space w = p.space v ∧ (p.record.write w).length = p.space v := by
  cases p with
  | bridge => exact ⟨v, h, rfl, Bridge.length_write v⟩
  | vault => exact ⟨v, h, rfl, Vault.record.length_write v⟩
  | roster =>
    have hlength := List.length_replicate (n := maxRelayers) (a := some ({} : Relayer))
    exact ⟨{ slots := .replicate maxRelayers (some {}) }, Nat.le_of_eq hlength, rfl,
      Roster.length_write_of_full hlength fun hnone => nomatch List.eq_of_mem_replicate hnone⟩
  | chain => exact ⟨v, h, rfl, Chain.length_write v⟩
  | outbound =>
    exact ⟨{ v with feePayer := .sponsor .zero }, h, rfl,
      (OutboundMessage.length_write_eq_iff _).2 ⟨.zero, rfl⟩⟩
  | receipt => exact ⟨v, h, rfl, Receipt.length_write v⟩
  | cursor => exact ⟨{ v with lastNonce := some 0 }, trivial, rfl, Cursor.length_write_of_some rfl⟩
  | sponsor =>
    have hlength := List.length_replicate (n := maxSponsoredTargets) (a := ({} : Sponsor.Target))
    exact ⟨{ targets := .replicate maxSponsoredTargets {} }, Nat.le_of_eq hlength, rfl,
      Sponsor.length_write_of_full hlength⟩

end Place

namespace Ledger

variable {l l' l₁ l₂ : Ledger} {p q : Place} {v w : p.Value} {payer id : AccountId} {size : Nat}

/-- **The account at a place is as large as a record needs it to be**, and belongs to the
program. -/
structure Room (l : Ledger) (p : Place) (v : p.Value) : Prop where
  owns : l.Owns p.id
  bounded : p.Bounded v
  size : (l.account p.id).data.length = p.space v

/-- **There is room for every record on the ledger.** -/
def Roomy (l : Ledger) : Prop := ∀ p v, l.entry p = some v → l.Room p v

/-- What the program owned it still owns, and in accounts of the same sizes. -/
def SameSizes (l l' : Ledger) : Prop :=
  ∀ id, l.Owns id → l'.Owns id ∧ (l'.account id).data.length = (l.account id).data.length

theorem SameSizes.refl (l : Ledger) : l.SameSizes l := fun _ h => ⟨h, rfl⟩

theorem SameSizes.trans (h : l.SameSizes l₁) (h' : l₁.SameSizes l₂) : l.SameSizes l₂ :=
  fun id ho => ⟨(h' id (h id ho).1).1, (h' id (h id ho).1).2.trans (h id ho).2⟩

theorem Extends.sameSizes (h : l.Extends l') : l.SameSizes l' :=
  fun id ho => ⟨h.owns ho, congrArg List.length (h.stays id ho).2⟩

/-! ## Room -/

/-- What there is room for can be written. -/
theorem Room.length_le (h : l.Room p v) :
    (p.record.write v).length ≤ (l.account p.id).data.length :=
  h.size ▸ h.bounded.length_write_le

theorem Room.mono (h : l.Room p v) (hsizes : l.SameSizes l') : l'.Room p v where
  owns := (hsizes p.id h.owns).1
  bounded := h.bounded
  size := (hsizes p.id h.owns).2.trans h.size

/-- Where there is room for one record there is room for another that takes the same space. -/
theorem Room.change (h : l.Room p v) (hw : p.Bounded w) (hspace : p.space w = p.space v) :
    l.Room p w where
  owns := h.owns
  bounded := hw
  size := h.size.trans hspace.symm

/-- An account that was created for a record has room for it. -/
theorem Created.room (h : l.Created payer p.id size l') (hv : p.Bounded v)
    (hspace : p.space v = size) : l'.Room p v where
  owns := h.owns
  bounded := hv
  size := by rw [h.data, List.length_replicate, hspace]

/-! ## Writing -/

/-- Writing what there is room for leaves all accounts their sizes. -/
theorem Room.sameSizes_write (h : l.Room p v) : l.SameSizes (l.write p v) := by
  refine fun id ho => ⟨owns_write.2 ho, ?_⟩
  by_cases hid : id = p.id
  · subst hid
    exact length_data_write h.length_le
  · rw [account_write_of_ne hid]

theorem Roomy.write (hl : l.Roomy) (h : l.Room p v) : (l.write p v).Roomy := by
  intro q w hw
  by_cases hq : q = p
  · subst hq
    obtain rfl : v = w := by simpa [entry_write_self h.owns h.bounded.fits] using hw
    exact h.mono h.sameSizes_write
  · rw [entry_write_of_ne hq] at hw
    exact (hl q w hw).mono h.sameSizes_write

/-- **What holds no record when it comes to the program leaves the ledger roomy.** -/
theorem Roomy.extend (hl : l.Roomy) (h : l.Extends l') : l'.Roomy := by
  intro p v hv
  rw [h.entry] at hv
  exact (hl p v hv).mono h.sameSizes

/-- A record that was read from the account at a place has room there. -/
theorem Roomy.room (hl : l.Roomy) (p : Place) {v : p.Value} {id : AccountId}
    (hload : p.record.load (l.account id) = .ok v) (hid : id = p.id) : l.Room p v :=
  hl p v (entry_of_load (hid ▸ hload))

end Ledger
end QuorumRelay
