import QuorumRelay.Governance
import QuorumRelay.Proofs.Membership

/-!
# What governing changes

The steps of the governing key check first and write once, at their end.  Each is
opened here into what it asked for and what it wrote; where it fails it has
written nothing.  A chain's limits and its pause are the governor's, its windows
are not: no step of governing touches them.
-/

namespace QuorumRelay

variable {f : Fault} {u : Unit} {actor : Key}

namespace Chain

variable {c c' : Chain} {id : ChainId} {limits : Limits}

/-- Limits that passed the check. -/
theorem Limits.check_eq_ok : limits.check = .ok u ↔
    1 ≤ limits.confirmations ∧
      (0 < limits.maxMessageBytes ∧ limits.maxMessageBytes.toNat ≤ maxPayloadBytes) ∧
      0 < limits.feeMultiplier ∧ 0 < limits.rateLimit := by
  unfold check
  simp only [except_bind_eq_ok, require_eq_ok, exists_const]

/-- Configuring replaces the identifier and the limits, and starts a new entry. -/
theorem configure_eq_ok (h : configure id limits c = .ok u c') :
    0 < id ∧ limits.check = .ok () ∧
      c' = { c with id, limits, active := c.active || c.id == 0 } := by
  unfold configure at h
  simp only [require_bind_eq_ok, lift_bind_eq_ok, get_bind, set_eq_ok] at h
  obtain ⟨hid, _, hlimits, rfl⟩ := h
  exact ⟨hid, hlimits, rfl⟩

theorem configure_eq_error (h : configure id limits c = .error f c') : c' = c := by
  unfold configure at h
  simp only [require_bind_eq_error, lift_bind_eq_error, get_bind, set_ne_error, and_false,
    exists_false, or_false] at h
  rcases h with ⟨-, -, rfl⟩ | ⟨-, -, rfl⟩ <;> rfl

end Chain

namespace Governance

variable {b b' : Bridge} {c c' : Chain} {council : Council}

theorem configureChain_eq_ok {id : ChainId} {limits : Chain.Limits}
    (h : configureChain council actor id limits c = .ok u c') :
    council actor = true ∧ (c.id = 0 ∨ c.id = id) ∧ Chain.configure id limits c = .ok u c' := by
  unfold configureChain at h
  simp only [lift_bind_eq_ok, Membership.council_check_eq_ok, get_bind, require_bind_eq_ok] at h
  obtain ⟨-, hcouncil, hid, hconfigure⟩ := h
  exact ⟨hcouncil, hid, hconfigure⟩

theorem configureChain_eq_error {id : ChainId} {limits : Chain.Limits}
    (h : configureChain council actor id limits c = .error f c') : c' = c := by
  unfold configureChain at h
  simp only [lift_bind_eq_error, get_bind, require_bind_eq_error] at h
  rcases h with ⟨-, rfl⟩ | ⟨-, -, ⟨-, -, rfl⟩ | ⟨-, hconfigure⟩⟩
  · rfl
  · rfl
  · exact Chain.configure_eq_error hconfigure

theorem setChainActive_eq_ok {active : Bool}
    (h : setChainActive council actor active c = .ok u c') :
    council actor = true ∧ c' = { c with active } := by
  unfold setChainActive at h
  simp only [lift_bind_eq_ok, Membership.council_check_eq_ok, modify_eq_ok] at h
  obtain ⟨-, hcouncil, rfl⟩ := h
  exact ⟨hcouncil, rfl⟩

theorem setChainActive_eq_error {active : Bool}
    (h : setChainActive council actor active c = .error f c') : c' = c := by
  unfold setChainActive at h
  simp only [lift_bind_eq_error, modify_ne_error, and_false, exists_false, or_false] at h
  exact h.2.symm

theorem setFeeSchedule_eq_ok {fees : FeeSchedule}
    (h : setFeeSchedule actor fees b = .ok u b') :
    b.council actor = true ∧ b' = { b with fees } := by
  unfold setFeeSchedule at h
  simp only [get_bind, lift_bind_eq_ok, Membership.council_check_eq_ok, modify_eq_ok] at h
  obtain ⟨-, hcouncil, -, -, rfl⟩ := h
  exact ⟨hcouncil, rfl⟩

theorem setFeeSchedule_eq_error {fees : FeeSchedule}
    (h : setFeeSchedule actor fees b = .error f b') : b' = b := by
  unfold setFeeSchedule at h
  simp only [get_bind, lift_bind_eq_error, modify_ne_error, and_false, exists_false,
    or_false] at h
  rcases h with ⟨-, rfl⟩ | ⟨-, -, -, rfl⟩ <;> rfl

theorem setAuthority_eq_ok {newAuthority previous : Key}
    (h : setAuthority actor newAuthority b = .ok previous b') :
    b.council actor = true ∧ previous = b.authority ∧
      b' = { b with authority := newAuthority } := by
  unfold setAuthority at h
  simp only [get_bind, lift_bind_eq_ok, Membership.council_check_eq_ok, set_bind,
    pure_eq_ok] at h
  obtain ⟨-, hcouncil, rfl, rfl⟩ := h
  exact ⟨hcouncil, rfl, rfl⟩

theorem setAuthority_eq_error {newAuthority : Key}
    (h : setAuthority actor newAuthority b = .error f b') : b' = b := by
  unfold setAuthority at h
  simp only [get_bind, lift_bind_eq_error, set_bind, pure_ne_error, and_false, exists_false,
    or_false] at h
  exact h.2.symm

end Governance
end QuorumRelay
