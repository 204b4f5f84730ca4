import QuorumRelay.Proofs.Ledger.Commit
import QuorumRelay.Proofs.Outbound.Queue

/-!
# Outbound messages that settle, committed
-/

namespace QuorumRelay
namespace Exec

variable {env : Environment} {A : List Passed} {m : Machine}

theorem markRelayed_ends (hk : m.ledger.Kept) (nonce : Nonce) :
    Ends A (Exec.markRelayed nonce) m (fun _ m' => Commits env A ⟨.markRelayed, nonce⟩ m m')
      fun _ => True := by
  unfold Exec.markRelayed
  refine .takeRecord fun _ r _ _ hr => ?_
  refine .takeRecord fun _ message _ _ hmessage => ?_
  refine .takeSigner fun relayer _ hp hsigned => ?_
  refine .heldSeeds fun hroster => ?_
  refine .heldSeeds fun hplace => ?_
  refine .heldWritable ?_
  refine .perform (fun _ message' hstep => ?_) fun _ _ _ => trivial
  unfold Exec.announceStatus
  refine .assoc (.emit (.note ?_))
  refine .last (.heldSave (.outbound nonce) hplace (.pure ?_))
  have hr' := Ledger.books_of_load .roster hr hroster
  have hmessage' := Ledger.books_of_load (.outbound nonce) hmessage hplace
  have hfits : (Place.outbound nonce).Fits message' := by
    have hfits := Ledger.fits_of_entry hmessage'
    rw [(OutboundMessage.pickUp_eq_ok hstep).2]
    exact hfits
  have hamends := (Ledger.Amends.refl m.ledger).change (.outbound nonce) hmessage' hfits nofun
  have heffect : Effect env A (m.ledger.spendable .vault) m.ledger.books _ _ _ :=
    .markRelayed ⟨relayer, hp, hsigned, rfl⟩ hr' hmessage' hstep
  exact .of_unpaid hk hamends heffect nofun (by simp) (by simp)

theorem confirmDelivery_ends (hk : m.ledger.Kept) (nonce : Nonce)
    (attestations : List Attestation) :
    Ends A (Exec.confirmDelivery env nonce attestations) m
      (fun _ m' => Commits env A ⟨.confirmDelivery, nonce, attestations⟩ m m') fun _ => True := by
  unfold Exec.confirmDelivery
  refine .takeRecord fun _ b _ _ hb => ?_
  refine .takeRecord fun _ r _ _ hr => ?_
  refine .takeRecord fun _ message _ _ hmessage => ?_
  refine .take fun _ _ _ => ?_
  refine .takeSigner fun _ _ _ _ => ?_
  refine .heldSeeds fun hbridge => ?_
  refine .heldWritable ?_
  refine .heldSeeds fun hroster => ?_
  refine .heldSeeds fun hplace => ?_
  refine .heldWritable ?_
  refine .checkAddress fun _ => ?_
  refine .check (fun proven hproven => ?_) fun _ _ => trivial
  refine .perform (fun digest s hstep => ?_) fun _ _ _ => trivial
  unfold Exec.announceStatus
  refine .assoc (.emit (.note ?_))
  refine .heldSave .bridge hbridge ?_
  refine .last (.heldSave (.outbound nonce) hplace (.pure ?_))
  have hb' := Ledger.books_of_load .bridge hb hbridge
  have hr' := Ledger.books_of_load .roster hr hroster
  have hmessage' := Ledger.books_of_load (.outbound nonce) hmessage hplace
  have hfits : (Place.outbound nonce).Fits s.message := by
    have hfits := Ledger.fits_of_entry hmessage'
    rw [(Settlement.confirm_eq_ok hstep).2.2.2.1]
    exact hfits
  have hamends := (Ledger.Amends.refl m.ledger).change .bridge (v := s.bridge) hb' trivial nofun
  have hamends := hamends.change (.outbound nonce) hmessage' hfits nofun
  have heffect : Effect env A (m.ledger.spendable .vault) m.ledger.books _ _ _ :=
    .confirmDelivery hb' hr' hmessage' hproven hstep
  exact .of_unpaid hk hamends heffect nofun (by simp) (by simp)

theorem reclaim_ends (hk : m.ledger.Kept) (hA : HostSigned A) (nonce : Nonce) :
    Ends A (Exec.reclaim env nonce) m (fun _ m' => Commits env A ⟨.reclaim, nonce⟩ m m')
      (Illiquid env A ⟨.reclaim, nonce⟩ m) := by
  unfold Exec.reclaim
  refine .takeRecord fun _ b _ _ hb => ?_
  refine .takeRecord fun _ message _ _ hmessage => ?_
  refine .takeRecord fun _ v _ _ hv => ?_
  refine .takeSigner fun sender _ hp hsigned => ?_
  refine .heldSeeds fun hbridge => ?_
  refine .heldWritable ?_
  refine .heldSeeds fun hplace => ?_
  refine .heldWritable ?_
  refine .heldSeeds fun hvault => ?_
  refine .heldWritable ?_
  refine .checkWritable ?_
  refine .perform (fun refund s hstep => ?_) fun _ _ h =>
    .of_spares (Settlement.reclaim_spares sender.id.key env.slot) h
  have hb' := Ledger.books_of_load .bridge hb hbridge
  have hmessage' := Ledger.books_of_load (.outbound nonce) hmessage hplace
  have hv' := Ledger.books_of_load .vault hv hvault
  have heffect : Effect env A (m.ledger.spendable .vault) m.ledger.books _ _ _ :=
    .reclaim ⟨sender, hp, hsigned, rfl⟩ hb' hmessage' hv' hstep
  rw [hvault]
  refine .onLedger (fun _ l hwithdraw => ?_) fun _ _ h => .of_withdraw heffect (Nat.le_refl _) h
  refine .note ?_
  unfold Exec.announceStatus
  refine .assoc (.emit (.note ?_))
  refine .heldSave .bridge hbridge ?_
  refine .last (.heldSave (.outbound nonce) hplace (.pure ?_))
  have hpaid : m.ledger.Paid .vault sender.id refund.toNat l :=
    (Ledger.withdraw_eq_ok hwithdraw).2
  have hfits : (Place.outbound nonce).Fits s.message := by
    have hfits := Ledger.fits_of_entry hmessage'
    rw [(Settlement.reclaim_eq_ok hstep).2.2.2.2.1]
    exact hfits
  have hamends := (Ledger.Amends.refl m.ledger).extend hpaid.same.extends
  have hamends := hamends.change .bridge (v := s.bridge) hb' trivial nofun
  have hamends := hamends.change (.outbound nonce) hmessage' hfits nofun
  exact .of_withdrawn hk hpaid (hA.ne_vault hp hsigned) hamends heffect nofun (by simp) (by simp)

end Exec
end QuorumRelay
