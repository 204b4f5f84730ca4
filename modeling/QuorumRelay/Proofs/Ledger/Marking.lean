import QuorumRelay.Ledger.Destination
import QuorumRelay.Proofs.Ledger.Room

/-!
# Receipts that are marked ahead

A message is marked in the account of its receipt before its destination is called, and the
receipt is written again when the instruction ends.  Between the two the ledger does not extend
the one that the records were read from: the receipts of the messages that were begun differ.

`Ledger.Marks` is what holds instead.  It names the digests whose receipts may differ and says of
all the rest what `Ledger.Extends` says.  What stands in these receipts meanwhile is left open,
because nothing that is written in the end depends on it: writing over the same places makes the
books equal again (`Books.AgreeBut`).
-/

namespace QuorumRelay

variable {D : Digest → Prop} {d digest : Digest} {receipt : Receipt}

/-! ## Books -/

/-- Books that differ in the receipts of some digests alone. -/
def Books.AgreeBut (D : Digest → Prop) (books books' : Books) : Prop :=
  ∀ p, (∀ d, D d → p ≠ .receipt d) → books p = books' p

namespace Books.AgreeBut

variable {books books' books'' : Books}

theorem refl (books : Books) : books.AgreeBut D books := fun _ _ => rfl

theorem trans (h : books.AgreeBut D books') (h' : books'.AgreeBut D books'') :
    books.AgreeBut D books'' :=
  fun p hp => (h p hp).trans (h' p hp)

theorem put (h : books.AgreeBut D books') (p : Place) (v : p.Value) :
    (books.put p v).AgreeBut D (books'.put p v) := by
  intro q hq
  by_cases hp : q = p
  · subst hp
    rw [put_self, put_self]
  · rw [put_of_ne _ _ hp, put_of_ne _ _ hp, h q hq]

/-- Books that differ in one receipt are the same once it is written over. -/
theorem put_receipt (h : books.AgreeBut (· = d) books') (r : Receipt) :
    books.put (.receipt d) r = books'.put (.receipt d) r := by
  funext q
  by_cases hq : q = .receipt d
  · subst hq
    rw [put_self, put_self]
  · rw [put_of_ne _ _ hq, put_of_ne _ _ hq]
    exact h q fun _ hd => hd ▸ hq

end Books.AgreeBut

/-! ## Ledgers -/

namespace Ledger

variable {l l₁ l₂ : Ledger}

/-- **What deliveries leave of a ledger**: the accounts of the program stay as they were, apart from
receipts of some digests, and what the program owns besides is blank. -/
structure Marks (D : Digest → Prop) (l l' : Ledger) : Prop where
  sizes : l.SameSizes l'
  stays : ∀ id, l.Owns id → (∀ d, D d → id ≠ .receipt d) →
    (l'.account id).data = (l.account id).data
  books : l'.books.AgreeBut D l.books
  kept : l.Kept → l'.Kept

namespace Marks

theorem owns (h : l.Marks D l₁) {id : AccountId} (ho : l.Owns id) : l₁.Owns id := (h.sizes id ho).1

theorem trans (h : l.Marks D l₁) (h' : l₁.Marks D l₂) : l.Marks D l₂ where
  sizes := h.sizes.trans h'.sizes
  stays id ho hid := (h'.stays id (h.owns ho) hid).trans (h.stays id ho hid)
  books := h'.books.trans h.books
  kept hk := h'.kept (h.kept hk)

/-- **There is still room for every record**, if there was for the receipts that differ. -/
theorem roomy (h : l.Marks D l₁) (hl : l.Roomy) (hD : ∀ d, D d → ∀ r, l.Room (.receipt d) r) :
    l₁.Roomy := by
  intro p v hv
  by_cases hp : ∀ d, D d → p ≠ .receipt d
  · exact (hl p v ((h.books p hp).symm.trans hv)).mono h.sizes
  · push Not at hp
    obtain ⟨d, hd, rfl⟩ := hp
    exact (hD d hd v).mono h.sizes

end Marks

theorem Extends.marks (h : l.Extends l₁) : l.Marks D l₁ where
  sizes := h.sameSizes
  stays id ho _ := (h.stays id ho).2
  books p _ := h.entry p
  kept := h.kept

/-! ## One mark -/

/-- **A mark is the receipt written over its place**, if it fits. -/
theorem mark_eq_ok {u : Unit} : mark (.receipt d) receipt digest l = .ok u l₁ ↔
    (Receipt.record.write (receipt.marked digest)).length ≤
        (l.account (.receipt d)).data.length ∧
      l₁ = l.write (.receipt d) (receipt.marked digest) := by
  unfold mark
  rw [get_bind]
  by_cases hfits : (Receipt.record.write (receipt.marked digest)).length ≤
      (l.account (.receipt d)).data.length
  · simp only [Record.store?, hfits, if_true, modify_eq_ok, true_and]
    exact eq_comm
  · simp only [Record.store?, hfits, if_false, throw_ne_ok, false_and]

/-- A mark that is not written leaves the ledger alone. -/
theorem mark_eq_error {place : AccountId} {f : Fault}
    (h : mark place receipt digest l = .error f l₁) : l₁ = l := by
  unfold mark at h
  rw [get_bind] at h
  cases hstore : Receipt.record.store? (receipt.marked digest) (l.account place).data with
  | some data => simp only [hstore, modify_ne_error] at h
  | none =>
    simp only [hstore, throw_eq_error] at h
    exact h.2.symm

/-- **Where there is room for a receipt, its mark is written.** -/
theorem mark_of_room (hroom : l.Room (.receipt d) receipt) :
    mark (.receipt d) receipt digest l = .ok () (l.write (.receipt d) (receipt.marked digest)) := by
  have hmarked : l.Room (.receipt d) (receipt.marked digest) := hroom.change trivial rfl
  exact mark_eq_ok.2 ⟨hmarked.length_le, rfl⟩

/-- A mark changes its own receipt alone. -/
theorem marks_of_mark {u : Unit} (h : mark (.receipt d) receipt digest l = .ok u l₁) (hd : D d) :
    l.Marks D l₁ := by
  obtain ⟨hfits, rfl⟩ := mark_eq_ok.1 h
  refine ⟨fun id ho => ⟨owns_write.2 ho, ?_⟩, fun id _ hid => ?_, fun p hp => ?_,
    fun hk => hk.write (.receipt d) _⟩
  · by_cases hid : id = .receipt d
    · subst hid
      exact length_data_write (p := .receipt d) hfits
    · rw [account_write_of_ne (p := .receipt d) hid]
  · rw [account_write_of_ne (p := .receipt d) (hid d hd)]
  · exact entry_write_of_ne (hp d hd) _

end Ledger
end QuorumRelay
