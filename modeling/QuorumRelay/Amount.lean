import QuorumRelay.Action

/-!
# Exact amounts

Money, nonces and slots are 64-bit counts.  Sums and products are taken exactly
and are refused as an overflow when 64 bits do not hold them, so an amount that
was computed is the true one (`fit_eq_ok_iff`).
-/

namespace QuorumRelay

/-- A count of lamports. -/
abbrev Amount := UInt64

/-- A host slot number, the program's only clock. -/
abbrev Slot := UInt64

/-- A message number. -/
abbrev Nonce := UInt64

/-- A chain's identifier. -/
abbrev ChainId := UInt32

namespace Amount

/-- The amount, if 64 bits hold it. -/
def fit (value : Nat) : Except Fault Amount :=
  if value < UInt64.size then .ok (UInt64.ofNat value) else .error (.refused .arithmeticOverflow)

theorem fit_eq_ok_iff {value : Nat} {a : Amount} : fit value = .ok a ↔ a.toNat = value := by
  unfold fit
  constructor
  · intro h
    split at h
    · cases h
      exact UInt64.toNat_ofNat_of_lt' ‹_›
    · cases h
  · intro h
    have hlt : value < UInt64.size := h ▸ a.toNat_lt
    rw [if_pos hlt, ← h, UInt64.ofNat_toNat]

theorem fit_eq_error_iff {value : Nat} {e : Fault} :
    fit value = .error e ↔ UInt64.size ≤ value ∧ e = .refused .arithmeticOverflow := by
  unfold fit
  split
  · constructor
    · intro h; cases h
    · intro h; omega
  · constructor
    · intro h; cases h; exact ⟨by omega, rfl⟩
    · rintro ⟨-, rfl⟩; rfl

/-- The sum, if 64 bits hold it. -/
def plus (a b : Amount) : Except Fault Amount := fit (a.toNat + b.toNat)

/-- The product, if 64 bits hold it. -/
def times (a : Amount) (count : Nat) : Except Fault Amount := fit (a.toNat * count)

/-- The difference, if it is not negative. -/
def minus (a b : Amount) : Except Fault Amount :=
  if b ≤ a then .ok (a - b) else .error (.refused .arithmeticOverflow)

/-- The difference, or 0 where it would be negative. -/
def monus (a b : Amount) : Amount := if b ≤ a then a - b else 0

end Amount

/-- The slot a number of slots later, or the last one. -/
def Slot.later (start count : Slot) : Slot :=
  UInt64.ofNat (min (start.toNat + count.toNat) (UInt64.size - 1))

end QuorumRelay
