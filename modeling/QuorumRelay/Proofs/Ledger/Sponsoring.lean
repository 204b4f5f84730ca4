import QuorumRelay.Proofs.AllowList
import QuorumRelay.Proofs.Ledger.Commit

/-!
# Sponsors, committed
-/

namespace QuorumRelay

/-- A sponsor's list stays short enough to be written. -/
theorem Sponsor.fits_of_setTarget {target : Target} {allowed : Bool} {s s' : Sponsor} {u : Unit}
    {owner : Key} (hs : (Place.sponsor owner).Fits s) (h : setTarget target allowed s = .ok u s') :
    (Place.sponsor owner).Fits s' :=
  Nat.lt_of_le_of_lt (length_le_of_setTarget h) (Nat.max_lt.2 ⟨hs, by decide⟩)

namespace Exec

variable {env : Environment} {A : List Passed} {m : Machine}

theorem openSponsor_ends (hk : m.ledger.Kept) (hA : HostSigned A) :
    Ends A Exec.openSponsor m (fun _ m' => Commits env A ⟨.openSponsor, ()⟩ m m')
      fun _ => True := by
  unfold Exec.openSponsor
  refine .takeFresh fun target _ _ => ?_
  refine .takeSigner fun owner _ ho hsigned => ?_
  refine .takeSystemProgram fun _ => ?_
  refine .init fun htarget l hl => ?_
  refine .checkWritable ?_
  refine .note ?_
  refine .last (.heldSave (.sponsor owner.id.key) htarget (.pure ?_))
  have hfits : (Place.sponsor owner.id.key).Fits
      { ({} : Sponsor) with owner := owner.id.key, bump := derivedBump } := by
    show ([] : List Sponsor.Target).length < 2 ^ 32
    decide
  have habsent := Ledger.absent_of_created (.sponsor owner.id.key) hl
  have hothers := hl.others .vault (hA.ne_vault ho hsigned) (by simp)
  simp only [Machine.handing_ledger] at hothers
  have hamends := (Ledger.Amends.refl m.ledger).extend hl.keeps
  have hamends := hamends.write (.sponsor owner.id.key) hl.owns hfits nofun
  have heffect : Effect env A (m.ledger.spendable .vault) m.ledger.books _ _ _ :=
    .openSponsor ⟨owner, ho, hsigned, rfl⟩ habsent
  exact .of_unpaid hk hamends heffect nofun (by simp [hothers]) (by simp)

/-- A sponsor's account that was checked is where it belongs, and its own. -/
theorem Ends.checkSponsor {α : Type} {Q : α → Machine → Prop} {E : Refusal → Prop}
    {s : Held Sponsor} {owner : Passed} {k : Unit → Exec α}
    (h : s.id = .sponsor owner.id.key → s.value.owner = owner.id.key → Ends A (k ()) m Q E) :
    Ends A (Exec.checkSponsor s owner >>= k) m Q E := by
  unfold Exec.checkSponsor
  refine .assoc (.heldSeeds fun hid => .assoc (.heldWritable ?_))
  by_cases howner : s.value.owner = owner.id.key
  · simp only [howner, if_true]
    exact h hid howner
  · simp only [howner, if_false]
    exact .failAt

theorem setSponsoredTarget_ends (hk : m.ledger.Kept) (target : Sponsor.Target) (allowed : Bool) :
    Ends A (Exec.setSponsoredTarget target allowed) m
      (fun _ m' => Commits env A ⟨.setSponsoredTarget, target, allowed⟩ m m') fun _ => True := by
  unfold Exec.setSponsoredTarget
  refine .takeRecord fun _ s _ _ hs => ?_
  refine .takeSigner fun owner _ ho hsigned => ?_
  refine .checkSponsor fun hsponsor hown => ?_
  refine .perform (fun _ s' hstep => ?_) fun _ _ _ => trivial
  refine .note ?_
  refine .last (.heldSave (.sponsor owner.id.key) hsponsor (.pure ?_))
  have hs' := Ledger.books_of_load (.sponsor owner.id.key) hs hsponsor
  have hfits := Sponsor.fits_of_setTarget (Ledger.fits_of_entry hs') hstep
  have hamends := (Ledger.Amends.refl m.ledger).change (.sponsor owner.id.key) hs' hfits nofun
  have heffect : Effect env A (m.ledger.spendable .vault) m.ledger.books _ _ _ :=
    .setSponsoredTarget ⟨owner, ho, hsigned, rfl⟩ hs' hown hstep
  exact .of_unpaid hk hamends heffect nofun (by simp) (by simp)

theorem depositSponsor_ends (hk : m.ledger.Kept) (hA : HostSigned A) (hstart : m.remaining = A)
    (amount : Amount) :
    Ends A (Exec.depositSponsor amount) m
      (fun _ m' => Commits env A ⟨.depositSponsor, amount⟩ m m') fun _ => True := by
  unfold Exec.depositSponsor
  refine .takeFirstRecord fun _ b _ hfirst hb => ?_
  refine .takeFirstRecord fun _ s _ hsecond hs => ?_
  refine .takeRecord fun _ v _ _ hv => ?_
  refine .takeSigner fun owner _ ho hsigned => ?_
  refine .takeSystemProgram fun _ => ?_
  refine .heldSeeds fun hbridge => ?_
  refine .heldWritable ?_
  refine .checkSponsor fun hsponsor hown => ?_
  refine .heldSeeds fun hvault => ?_
  refine .heldWritable ?_
  refine .checkWritable ?_
  refine .perform (fun _ s' hstep => ?_) fun _ _ _ => trivial
  refine .perform (fun _ b' hhold => ?_) fun _ _ _ => trivial
  refine .onLedger (fun _ l hdeposit => ?_) fun _ _ _ => trivial
  unfold Exec.announceBalance
  refine .assoc (.emit (.note ?_))
  refine .heldSave .bridge hbridge ?_
  refine .last (.heldSave (.sponsor owner.id.key) hsponsor (.pure ?_))
  rw [hvault] at hdeposit
  have hpaid := Ledger.deposit_eq_ok hdeposit
  have hb' := Ledger.books_of_load .bridge hb hbridge
  have hs' := Ledger.books_of_load (.sponsor owner.id.key) hs hsponsor
  have hplace : HandedAt A 1 (.sponsor owner.id.key) := by
    rw [← hstart, hfirst]
    exact ⟨_, congrArg (·[0]?) hsecond, hsponsor⟩
  have hv' := Ledger.books_of_load .vault hv hvault
  have hfits : (Place.sponsor owner.id.key).Fits s' := by
    have hfits := Ledger.fits_of_entry hs'
    rw [(Sponsor.deposit_eq_ok hstep).2.2]
    exact hfits
  have hamends := (Ledger.Amends.refl m.ledger).extend hpaid.same.extends
  have hamends := hamends.change .bridge (v := b') hb' trivial nofun
  have hamends := hamends.change (.sponsor owner.id.key) hs' hfits nofun
  have heffect : Effect env A (m.ledger.spendable .vault) m.ledger.books _ _ _ :=
    .depositSponsor ⟨owner, ho, hsigned, rfl⟩ hb' hs' hv' hown hstep hhold hplace
  exact .of_deposited hk hpaid (hA.ne_vault ho hsigned) rfl hamends heffect nofun (by simp)
    (by simp)

theorem withdrawSponsor_ends (hk : m.ledger.Kept) (hA : HostSigned A) (hstart : m.remaining = A)
    (amount : Amount) :
    Ends A (Exec.withdrawSponsor amount) m
      (fun _ m' => Commits env A ⟨.withdrawSponsor, amount⟩ m m')
      (Illiquid env A ⟨.withdrawSponsor, amount⟩ m) := by
  unfold Exec.withdrawSponsor
  refine .takeFirstRecord fun _ b _ hfirst hb => ?_
  refine .takeFirstRecord fun _ s _ hsecond hs => ?_
  refine .takeRecord fun _ v _ _ hv => ?_
  refine .takeSigner fun owner _ ho hsigned => ?_
  refine .takeSystemProgram fun _ => ?_
  refine .heldSeeds fun hbridge => ?_
  refine .heldWritable ?_
  refine .checkSponsor fun hsponsor hown => ?_
  refine .heldSeeds fun hvault => ?_
  refine .heldWritable ?_
  refine .checkWritable ?_
  refine .perform (fun _ s' hstep => ?_) fun _ _ h => .of_spares (Sponsor.withdraw_spares amount) h
  refine .perform (fun _ b' hrelease => ?_) fun _ _ h =>
    .of_spares (Bridge.releaseSponsorFunds_spares amount) h
  have hb' := Ledger.books_of_load .bridge hb hbridge
  have hs' := Ledger.books_of_load (.sponsor owner.id.key) hs hsponsor
  have hplace : HandedAt A 1 (.sponsor owner.id.key) := by
    rw [← hstart, hfirst]
    exact ⟨_, congrArg (·[0]?) hsecond, hsponsor⟩
  have hv' := Ledger.books_of_load .vault hv hvault
  have heffect : Effect env A (m.ledger.spendable .vault) m.ledger.books _ _ _ :=
    .withdrawSponsor ⟨owner, ho, hsigned, rfl⟩ hb' hs' hv' hown hstep hrelease hplace
  rw [hvault]
  refine .onLedger (fun _ l hwithdraw => ?_) fun _ _ h => .of_withdraw heffect (Nat.le_refl _) h
  unfold Exec.announceBalance
  refine .assoc (.emit (.note ?_))
  refine .heldSave .bridge hbridge ?_
  refine .last (.heldSave (.sponsor owner.id.key) hsponsor (.pure ?_))
  have hpaid : m.ledger.Paid .vault owner.id amount.toNat l :=
    (Ledger.withdraw_eq_ok hwithdraw).2
  have hfits : (Place.sponsor owner.id.key).Fits s' := by
    have hfits := Ledger.fits_of_entry hs'
    rw [(Sponsor.withdraw_eq_ok hstep).2.2]
    exact hfits
  have hamends := (Ledger.Amends.refl m.ledger).extend hpaid.same.extends
  have hamends := hamends.change .bridge (v := b') hb' trivial nofun
  have hamends := hamends.change (.sponsor owner.id.key) hs' hfits nofun
  exact .of_withdrawn hk hpaid (hA.ne_vault ho hsigned) hamends heffect nofun (by simp) (by simp)

end Exec
end QuorumRelay
