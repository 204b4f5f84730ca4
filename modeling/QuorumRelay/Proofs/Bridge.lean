import QuorumRelay.Bridge
import QuorumRelay.Proofs.Step

/-!
# What the bridge's books record

Each step on the bridge record is opened once, with the sums and differences it
computed read as those of natural numbers.  The steps compute all they need
before they write, with one exception: `payCompensation` debits the pool before
it knows that the running total fits, so where it fails the pool may be short of
what was never paid (`payCompensation_eq_error`).
-/

namespace QuorumRelay
namespace Bridge

variable {b b' : Bridge} {f : Fault} {u : Unit} {fee value amount : Amount} {sponsored : Bool}

/-- A bridge starts with empty books. -/
theorem create_eq_ok {authority : Key} {identity : Address} {s : Settings}
    (h : create authority identity s = .ok b) :
    b.pool = 0 ∧ b.lockedValue = 0 ∧ b.sponsorFunds = 0 ∧ b.feesCollected = 0 ∧
      b.compensationClaimed = 0 := by
  unfold create at h
  simp only [except_bind_eq_ok, except_pure_eq_ok] at h
  obtain ⟨-, -, rfl⟩ := h
  exact ⟨rfl, rfl, rfl, rfl, rfl⟩

/-- The first message of a bridge will be message zero. -/
theorem nextNonce_of_create {authority : Key} {identity : Address} {s : Settings}
    (h : create authority identity s = .ok b) : b.nextNonce = 0 := by
  unfold create at h
  simp only [except_bind_eq_ok, except_pure_eq_ok] at h
  obtain ⟨-, -, rfl⟩ := h
  rfl

/-- **What a message brings goes into the books**: its fee into the pool, out of the sponsors'
funds if a sponsor pays, and its value to that of the open messages. -/
theorem recordSend_eq_ok {nonce : Nonce} (h : recordSend fee value sponsored b = .ok nonce b') :
    nonce = b.nextNonce ∧
      b'.nextNonce.toNat = b.nextNonce.toNat + 1 ∧
      b'.pool.toNat = b.pool.toNat + fee.toNat ∧
      b'.lockedValue.toNat = b.lockedValue.toNat + value.toNat ∧
      b'.sponsorFunds.toNat + (if sponsored then fee.toNat else 0) = b.sponsorFunds.toNat ∧
      b'.feesCollected.toNat = b.feesCollected.toNat + fee.toNat ∧
      b' = { b with
        nextNonce := b'.nextNonce, pool := b'.pool, feesCollected := b'.feesCollected
        lockedValue := b'.lockedValue, sponsorFunds := b'.sponsorFunds } := by
  unfold recordSend at h
  simp only [get_bind, lift_bind_eq_ok, Amount.plus_eq_ok] at h
  obtain ⟨nextNonce, hnonce, pool, hpool, fees, hfees, locked, hlocked, h⟩ := h
  cases sponsored with
  | true =>
    simp only [if_true, lift_bind_eq_ok, set_bind, pure_eq_ok] at h
    obtain ⟨funds, hfunds, rfl, rfl⟩ := h
    exact ⟨rfl, hnonce, hpool, hlocked, Amount.toNat_of_minus hfunds, hfees, rfl⟩
  | false =>
    simp only [Bool.false_eq_true, if_false, pure_bind, set_bind, pure_eq_ok] at h
    obtain ⟨rfl, rfl⟩ := h
    exact ⟨rfl, hnonce, hpool, hlocked, rfl, hfees, rfl⟩

theorem recordSend_eq_error (h : recordSend fee value sponsored b = .error f b') : b' = b := by
  unfold recordSend at h
  simp only [get_bind, lift_bind_eq_error] at h
  rcases h with ⟨-, rfl⟩ | ⟨_, -, ⟨-, rfl⟩ | ⟨_, -, ⟨-, rfl⟩ | ⟨_, -, ⟨-, rfl⟩ | ⟨_, -, h⟩⟩⟩⟩
  iterate 4 rfl
  cases sponsored with
  | true =>
    simp only [if_true, lift_bind_eq_error, set_bind, pure_ne_error, and_false, exists_false,
      or_false] at h
    exact h.2.symm
  | false => simp only [Bool.false_eq_true, if_false, pure_bind, set_bind, pure_ne_error] at h

/-- As long as the sponsors' funds cover the fee, a sponsored message is refused only where one
whose sender pays would be. -/
theorem recordSend_of_sponsored (hle : fee ≤ b.sponsorFunds)
    (h : recordSend fee value true b = .error f b') : recordSend fee value false b = .error f b' := by
  unfold recordSend at h ⊢
  simp only [get_bind, lift_bind_eq_error, if_true, Bool.false_eq_true, if_false, pure_bind,
    set_bind, pure_ne_error, and_false, exists_false, or_false, Amount.minus_eq_error,
    UInt64.not_lt.2 hle, false_and] at h ⊢
  exact h

/-- Compensation comes out of the pool. -/
theorem payCompensation_eq_ok (h : payCompensation amount b = .ok u b') :
    b'.pool.toNat + amount.toNat = b.pool.toNat ∧
      b' = { b with pool := b'.pool, compensationClaimed := b'.compensationClaimed } := by
  unfold payCompensation at h
  simp only [get_bind, require_bind_eq_ok, set_bind, lift_bind_eq_ok, modify_eq_ok] at h
  obtain ⟨hle, claimed, -, rfl⟩ := h
  refine ⟨?_, rfl⟩
  show (b.pool - amount).toNat + amount.toNat = b.pool.toNat
  have hle' : amount.toNat ≤ b.pool.toNat := UInt64.le_iff_toNat_le.1 hle
  rw [UInt64.toNat_sub_of_le _ _ hle]
  omega

/-- Compensation is counted when it is paid. -/
theorem claimed_of_payCompensation (h : payCompensation amount b = .ok u b') :
    b'.compensationClaimed.toNat = b.compensationClaimed.toNat + amount.toNat := by
  unfold payCompensation at h
  simp only [get_bind, require_bind_eq_ok, set_bind, lift_bind_eq_ok, modify_eq_ok,
    Amount.plus_eq_ok] at h
  obtain ⟨-, claimed, hclaimed, rfl⟩ := h
  exact hclaimed

/-- A payment fails because the pool does not cover it, with everything as it was, or because the
running total does not fit. -/
theorem payCompensation_fails (h : payCompensation amount b = .error f b') :
    (b.pool < amount ∧ f = .refused .insufficientPoolBalance ∧ b' = b) ∨
      amount ≤ b.pool ∧ UInt64.size ≤ b.compensationClaimed.toNat + amount.toNat := by
  unfold payCompensation at h
  simp only [get_bind, require_bind_eq_error, set_bind, lift_bind_eq_error, modify_ne_error,
    and_false, exists_false, or_false, Amount.plus_eq_error] at h
  rcases h with ⟨hlt, rfl, rfl⟩ | ⟨hle, ⟨hfull, -⟩, -⟩
  · exact .inl ⟨UInt64.not_le.1 hlt, rfl, rfl⟩
  · exact .inr ⟨hle, hfull⟩

/-- A payment that fails leaves everything but the pool as it was. -/
theorem payCompensation_eq_error (h : payCompensation amount b = .error f b') :
    b' = { b with pool := b'.pool } := by
  unfold payCompensation at h
  simp only [get_bind, require_bind_eq_error, set_bind, lift_bind_eq_error, modify_ne_error,
    and_false, exists_false, or_false] at h
  rcases h with ⟨-, -, rfl⟩ | ⟨-, -, rfl⟩ <;> rfl

/-- The value of a message that ends is no longer counted. -/
theorem releaseValue_eq_ok (h : releaseValue value b = .ok u b') :
    b'.lockedValue.toNat + value.toNat = b.lockedValue.toNat ∧
      b' = { b with lockedValue := b'.lockedValue } := by
  unfold releaseValue at h
  simp only [get_bind, lift_bind_eq_ok, set_eq_ok] at h
  obtain ⟨locked, hlocked, rfl⟩ := h
  exact ⟨Amount.toNat_of_minus hlocked, rfl⟩

/-- Only a value that is not in the books cannot be taken out of them. -/
theorem releaseValue_eq_error (h : releaseValue value b = .error f b') :
    b.lockedValue < value ∧ b' = b := by
  unfold releaseValue at h
  simp only [get_bind, lift_bind_eq_error, set_ne_error, and_false, exists_false, or_false] at h
  obtain ⟨hlocked, rfl⟩ := h
  exact ⟨(Amount.minus_eq_error.1 hlocked).1, rfl⟩

theorem holdSponsorFunds_eq_ok (h : holdSponsorFunds amount b = .ok u b') :
    b'.sponsorFunds.toNat = b.sponsorFunds.toNat + amount.toNat ∧
      b' = { b with sponsorFunds := b'.sponsorFunds } := by
  unfold holdSponsorFunds at h
  simp only [get_bind, lift_bind_eq_ok, set_eq_ok, Amount.plus_eq_ok] at h
  obtain ⟨funds, hfunds, rfl⟩ := h
  exact ⟨hfunds, rfl⟩

theorem holdSponsorFunds_eq_error (h : holdSponsorFunds amount b = .error f b') : b' = b := by
  unfold holdSponsorFunds at h
  simp only [get_bind, lift_bind_eq_error, set_ne_error, and_false, exists_false, or_false] at h
  exact h.2.symm

theorem releaseSponsorFunds_eq_ok (h : releaseSponsorFunds amount b = .ok u b') :
    b'.sponsorFunds.toNat + amount.toNat = b.sponsorFunds.toNat ∧
      b' = { b with sponsorFunds := b'.sponsorFunds } := by
  unfold releaseSponsorFunds at h
  simp only [get_bind, lift_bind_eq_ok, set_eq_ok] at h
  obtain ⟨funds, hfunds, rfl⟩ := h
  exact ⟨Amount.toNat_of_minus hfunds, rfl⟩

/-- Sponsors' funds can be released as long as they last. -/
theorem exists_releaseSponsorFunds (h : amount ≤ b.sponsorFunds) :
    ∃ b', releaseSponsorFunds amount b = .ok () b' := by
  refine ⟨{ b with sponsorFunds := b.sponsorFunds - amount }, ?_⟩
  unfold releaseSponsorFunds
  simp only [get_bind, lift_bind_eq_ok, set_eq_ok]
  exact ⟨_, Amount.minus_eq_ok.2 ⟨h, rfl⟩, rfl⟩

theorem releaseSponsorFunds_eq_error (h : releaseSponsorFunds amount b = .error f b') :
    b' = b := by
  unfold releaseSponsorFunds at h
  simp only [get_bind, lift_bind_eq_error, set_ne_error, and_false, exists_false, or_false] at h
  exact h.2.symm

theorem lockedValue_after_holdSponsorFunds (amount : Amount) (b : Bridge) :
    ((holdSponsorFunds amount).after b).lockedValue = b.lockedValue := by
  refine Action.after_induct (P := fun b' : Bridge => b'.lockedValue = _) (fun _ b' h => ?_)
    fun f b' h => ?_
  · rw [(holdSponsorFunds_eq_ok h).2]
  · rw [holdSponsorFunds_eq_error h]

theorem lockedValue_after_releaseSponsorFunds (amount : Amount) (b : Bridge) :
    ((releaseSponsorFunds amount).after b).lockedValue = b.lockedValue := by
  refine Action.after_induct (P := fun b' : Bridge => b'.lockedValue = _) (fun _ b' h => ?_)
    fun f b' h => ?_
  · rw [(releaseSponsorFunds_eq_ok h).2]
  · rw [releaseSponsorFunds_eq_error h]

/-- What the vault owes is the sum of the four entries, if 64 bits hold it. -/
theorem reserved_eq_ok {staked owed : Amount} (h : b.reserved staked = .ok owed) :
    owed.toNat = b.pool.toNat + b.lockedValue.toNat + b.sponsorFunds.toNat + staked.toNat := by
  unfold reserved at h
  simp only [except_bind_eq_ok, Amount.plus_eq_ok] at h
  obtain ⟨_, h₁, _, h₂, h₃⟩ := h
  omega

/-- The entries are added up without an overflow if 64 bits hold their sum. -/
theorem exists_reserved {staked : Amount}
    (h : b.pool.toNat + b.lockedValue.toNat + b.sponsorFunds.toNat + staked.toNat < UInt64.size) :
    ∃ owed, b.reserved staked = .ok owed := by
  unfold reserved
  obtain ⟨x, hx⟩ := Amount.exists_plus (a := b.pool) (b := b.lockedValue) (by omega)
  have hx' := Amount.plus_eq_ok.1 hx
  obtain ⟨y, hy⟩ := Amount.exists_plus (a := x) (b := b.sponsorFunds) (by omega)
  have hy' := Amount.plus_eq_ok.1 hy
  obtain ⟨z, hz⟩ := Amount.exists_plus (a := y) (b := staked) (by omega)
  exact ⟨z, except_bind_eq_ok.2 ⟨x, hx, except_bind_eq_ok.2 ⟨y, hy, hz⟩⟩⟩

end Bridge
end QuorumRelay
