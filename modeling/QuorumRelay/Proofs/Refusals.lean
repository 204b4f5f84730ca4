import QuorumRelay.Membership
import QuorumRelay.Outbound.Queue
import QuorumRelay.Proofs.Step

/-!
# Reasons a step never gives

When a payment is refused for want of liquidity, one wants to know that it was
the payment that was refused and not the step that worked out its amount.  So
here is, for each step that works out a payment, that it never gives this reason.
A step *spares* a reason if no state makes it fail for that reason
(`Action.Spares`); rows of steps that spare a reason spare it.
-/

namespace QuorumRelay

namespace Action

variable {σ τ α β : Type} {reason : Refusal}

/-- **The step is never refused for the reason.** -/
def Spares (reason : Refusal) (step : Action σ α) : Prop :=
  ∀ s s', step s ≠ .error (.refused reason) s'

namespace Spares

protected theorem bind {step : Action σ α} {next : α → Action σ β} (h : step.Spares reason)
    (hnext : ∀ a, (next a).Spares reason) : Spares reason (step >>= next) := by
  intro s s' heq
  rcases bind_eq_error.1 heq with hstep | ⟨a, s₁, -, hstep⟩
  · exact h s s' hstep
  · exact hnext a s₁ s' hstep

protected theorem pure {a : α} : Spares reason (pure a : Action σ α) := fun _ _ => nofun

protected theorem get : Spares reason (get : Action σ σ) := fun _ _ => nofun

protected theorem set {s : σ} : Spares reason (MonadStateOf.set s : Action σ PUnit) :=
  fun _ _ => nofun

protected theorem modify {g : σ → σ} : Spares reason (modify g : Action σ PUnit) := fun _ _ => nofun

protected theorem lift {x : Except Fault α} (h : x ≠ .error (.refused reason)) :
    Spares reason (x : Action σ α) :=
  fun _ _ heq => h (lift_eq_error.1 heq).1

protected theorem require {p : Prop} [Decidable p] {other : Refusal} (h : other ≠ reason) :
    Spares reason (require p other : Action σ Unit) := by
  intro s s' heq
  obtain ⟨-, hother, -⟩ := require_apply_eq_error.1 heq
  exact h (by simpa using hother.symm)

protected theorem on {part : σ → τ} {putBack : τ → σ → σ} {step : Action τ α}
    (h : step.Spares reason) : Spares reason (step.on part putBack) := by
  intro s s' heq
  obtain ⟨t, hstep, -⟩ := on_eq_error.1 heq
  exact h _ t hstep

end Spares
end Action

/-! ## No step that works out a payment is short of liquidity -/

open QuorumRelay.Action (Spares)

theorem Amount.plus_spares {σ : Type} (a b : Amount) :
    Spares .insufficientLiquidity (a.plus b : Action σ Amount) :=
  .lift fun h => nomatch (plus_eq_error.1 h).2

theorem Amount.minus_spares {σ : Type} (a b : Amount) :
    Spares .insufficientLiquidity (a.minus b : Action σ Amount) :=
  .lift fun h => nomatch (minus_eq_error.1 h).2

namespace Roster

variable (index : UInt8) (caller : Key)

theorem relayer_spares {σ : Type} (r : Roster) :
    Spares .insufficientLiquidity (r.relayer index : Action σ Relayer) := by
  refine .lift fun h => ?_
  unfold relayer at h
  split at h <;> cases h

theorem checkOwner_spares {σ : Type} (r : Roster) :
    Spares .insufficientLiquidity (r.checkOwner index caller : Action σ Unit) := by
  refine .lift fun h => ?_
  unfold checkOwner relayer at h
  split at h
  · rcases require_eq_error.1 h with ⟨-, h⟩
    cases h
  · cases h

theorem remove_spares : Spares .insufficientLiquidity (remove index) := by
  refine .bind .get fun r => .bind (relayer_spares index r) fun entry => ?_
  split
  · intro _ _ h
    cases h
  · exact .bind (.require (by decide)) fun _ => .bind .set fun _ => .pure

theorem unregister_spares : Spares .insufficientLiquidity (unregister index caller) :=
  .bind .get fun r => .bind (checkOwner_spares index caller r) fun _ => remove_spares index

theorem debitEarnings_spares (amount : Amount) :
    Spares .insufficientLiquidity (debitEarnings index caller amount) :=
  .bind .get fun r => .bind (.require nofun) fun _ =>
    .bind (checkOwner_spares index caller r) fun _ => .bind (relayer_spares index r) fun _ =>
      .bind (.require nofun) fun _ => .set

end Roster

theorem Bridge.payCompensation_spares (amount : Amount) :
    Spares .insufficientLiquidity (payCompensation amount) :=
  .bind .get fun _ => .bind (.require nofun) fun _ => .bind .set fun _ =>
    .bind (Amount.plus_spares _ _) fun _ => .modify

theorem Bridge.releaseValue_spares (value : Amount) :
    Spares .insufficientLiquidity (releaseValue value) :=
  .bind .get fun _ => .bind (Amount.minus_spares _ _) fun _ => .set

theorem Bridge.releaseSponsorFunds_spares (amount : Amount) :
    Spares .insufficientLiquidity (releaseSponsorFunds amount) :=
  .bind .get fun _ => .bind (Amount.minus_spares _ _) fun _ => .set

theorem Sponsor.withdraw_spares (amount : Amount) :
    Spares .insufficientLiquidity (withdraw amount) :=
  .bind .get fun _ => .bind (.require nofun) fun _ => .bind (.require nofun) fun _ => .set

namespace Membership

variable (index : UInt8) (caller actor : Key)

theorem settle_spares (e : Relayer) : Spares .insufficientLiquidity (settle index e) :=
  .bind .get fun _ => .bind (Bridge.payCompensation_spares _) fun _ =>
    .bind (Amount.plus_spares _ _) fun _ => .pure

theorem unregister_spares : Spares .insufficientLiquidity (unregister index caller) :=
  .bind (.on (Roster.unregister_spares index caller)) fun e => .on (settle_spares index e)

theorem remove_spares : Spares .insufficientLiquidity (remove actor index) := by
  refine .bind .get fun m => .bind (.lift fun h => ?_) fun _ =>
    .bind (.on (Roster.remove_spares index)) fun e => .on (settle_spares index e)
  exact nomatch (require_eq_error.1 h).2

theorem claim_spares (amount : Amount) :
    Spares .insufficientLiquidity (claim index caller amount) :=
  .bind .get fun _ => .bind (.require nofun) fun _ =>
    .bind (.on (Roster.debitEarnings_spares index caller amount)) fun _ =>
      .on (Bridge.payCompensation_spares amount)

end Membership

theorem OutboundMessage.reclaim_spares (caller : Key) (now reclaimAfter : Slot) :
    Spares .insufficientLiquidity (reclaim caller now reclaimAfter) :=
  .bind .get fun _ => .bind (.require nofun) fun _ => .bind (.require nofun) fun _ =>
    .bind (.require nofun) fun _ => .bind .set fun _ => .pure

theorem Settlement.reclaim_spares (caller : Key) (now : Slot) :
    Spares .insufficientLiquidity (reclaim caller now) :=
  .bind .get fun _ => .bind (.on (OutboundMessage.reclaim_spares caller now _)) fun value =>
    .bind (.on (Bridge.releaseValue_spares value)) fun _ => .pure

end QuorumRelay
