import QuorumRelay.Proofs.Ledger.Commit
import QuorumRelay.Proofs.Membership

/-!
# Relayers that join, leave and are paid, committed
-/

namespace QuorumRelay

/-- **A relayer that was paid out of the vault is committed**, once the bridge and the roster are
written. -/
theorem Commits.of_paidRelayer {env : Environment} {A : List Passed} {i : Instruction}
    {m m' : Machine} {l : Ledger} {payee : AccountId} {amount : Amount} {b b' : Bridge}
    {r r' : Roster} {events : List Event} {u : Unit} (hk : m.ledger.Kept)
    (hwithdraw : Ledger.withdraw .vault payee amount m.ledger = .ok u l)
    (hne : AccountId.vault ≠ payee) (hb : m.ledger.books .bridge = some b)
    (hr : m.ledger.books .roster = some r) (hchange : Roster.Change r r'.slots)
    (heffect : Effect env A (m.ledger.spendable .vault) m.ledger.books i
      ((m.ledger.books.put .bridge b').put .roster r')
      { returned := amount.toNat, payee := some payee, events })
    (hkind : i.kind ≠ .createBridge)
    (hledger : m'.ledger = (l.write .bridge b').write .roster r')
    (hlog : m'.attempts = m.attempts ∧ m'.payments = m.payments ∧
      m'.events = m.events ++ events) : Commits env A i m m' := by
  have hpaid := (Ledger.withdraw_eq_ok hwithdraw).2
  have hamends := (Ledger.Amends.refl m.ledger).extend hpaid.same.extends
  have hamends := hamends.change .bridge (v := b') hb trivial nofun
  have hamends := hamends.change .roster hr (hchange.fits (Ledger.fits_of_entry hr)) nofun
  rw [← hledger] at hamends
  exact .of_withdrawn hk hpaid hne hamends heffect hkind (by simp [hledger]) hlog

namespace Exec

variable {env : Environment} {A : List Passed} {m : Machine}

theorem registerRelayer_ends (hk : m.ledger.Kept) (hA : HostSigned A) (publicKey : Key)
    (stake : Amount) :
    Ends A (Exec.registerRelayer env publicKey stake) m
      (fun _ m' => Commits env A ⟨.registerRelayer, publicKey, stake⟩ m m') fun _ => True := by
  unfold Exec.registerRelayer
  refine .takeRecord fun _ b _ _ hb => ?_
  refine .takeRecord fun _ r _ _ hr => ?_
  refine .takeRecord fun _ v _ _ hv => ?_
  refine .takeSigner fun owner _ ho hosigned => ?_
  refine .takeSigner fun authority _ ha hasigned => ?_
  refine .takeSystemProgram fun _ => ?_
  refine .heldSeeds fun hbridge => ?_
  refine .heldSeeds fun hroster => ?_
  refine .heldWritable ?_
  refine .heldSeeds fun hvault => ?_
  refine .heldWritable ?_
  refine .checkWritable ?_
  refine .perform (fun index r' hstep => ?_) fun _ _ _ => trivial
  refine .onLedger (fun _ l hdeposit => ?_) fun _ _ _ => trivial
  refine .emit (.note ?_)
  refine .last (.heldSave .roster hroster (.pure ?_))
  rw [hvault] at hdeposit
  have hpaid := Ledger.deposit_eq_ok hdeposit
  have hb' := Ledger.books_of_load .bridge hb hbridge
  have hr' := Ledger.books_of_load .roster hr hroster
  have hv' := Ledger.books_of_load .vault hv hvault
  have hchange := Roster.Change.of_register_ok (Membership.register_eq_ok hstep).2
  have hfits := hchange.fits (Ledger.fits_of_entry hr')
  have hamends := (Ledger.Amends.refl m.ledger).extend hpaid.same.extends
  have hamends := hamends.change .roster hr' hfits nofun
  have heffect : Effect env A (m.ledger.spendable .vault) m.ledger.books _ _ _ :=
    .registerRelayer ⟨owner, ho, hosigned, rfl⟩ ⟨authority, ha, hasigned, rfl⟩ hb' hr' hv' hstep
  exact .of_deposited hk hpaid (hA.ne_vault ho hosigned) rfl hamends heffect nofun (by simp)
    (by simp)

theorem unregisterRelayer_ends (hk : m.ledger.Kept) (hA : HostSigned A) (index : UInt8) :
    Ends A (Exec.unregisterRelayer index) m
      (fun _ m' => Commits env A ⟨.unregisterRelayer, index⟩ m m')
      (Illiquid env A ⟨.unregisterRelayer, index⟩ m) := by
  unfold Exec.unregisterRelayer
  refine .takeRecord fun _ b _ _ hb => ?_
  refine .takeRecord fun _ r _ _ hr => ?_
  refine .takeRecord fun _ v _ _ hv => ?_
  refine .takeSigner fun owner _ ho hsigned => ?_
  refine .heldSeeds fun hbridge => ?_
  refine .heldWritable ?_
  refine .heldSeeds fun hroster => ?_
  refine .heldWritable ?_
  refine .heldSeeds fun hvault => ?_
  refine .heldWritable ?_
  refine .checkWritable ?_
  refine .perform (fun d n hstep => ?_) fun _ _ h =>
    .of_spares (Membership.unregister_spares index owner.id.key) h
  have hb' := Ledger.books_of_load .bridge hb hbridge
  have hr' := Ledger.books_of_load .roster hr hroster
  have hv' := Ledger.books_of_load .vault hv hvault
  obtain ⟨_, hleave, -⟩ := Membership.unregister_eq_ok hstep
  have hchange := Roster.Change.of_remove (Roster.unregister_eq_ok hleave).2
  have heffect : Effect env A (m.ledger.spendable .vault) m.ledger.books _ _ _ :=
    .unregisterRelayer ⟨owner, ho, hsigned, rfl⟩ hb' hr' hv' hstep
  unfold Exec.payOut
  rw [hvault]
  refine .assoc (.onLedger (fun _ l hwithdraw => ?_) fun _ _ h =>
    .of_withdraw heffect (Nat.le_refl _) h)
  refine .assoc (.emit (.note ?_))
  refine .heldSave .bridge hbridge ?_
  refine .last (.heldSave .roster hroster (.pure ?_))
  exact .of_paidRelayer hk hwithdraw (hA.ne_vault ho hsigned) hb' hr' hchange heffect nofun rfl
    (by simp)

theorem removeRelayer_ends (hk : m.ledger.Kept) (hvacant : m.ledger.books.VaultUnseated)
    (index : UInt8) :
    Ends A (Exec.removeRelayer index) m
      (fun _ m' => Commits env A ⟨.removeRelayer, index⟩ m m')
      (Illiquid env A ⟨.removeRelayer, index⟩ m) := by
  unfold Exec.removeRelayer
  refine .takeRecord fun _ b _ _ hb => ?_
  refine .takeRecord fun _ r _ _ hr => ?_
  refine .takeRecord fun _ v _ _ hv => ?_
  refine .take fun owner _ _ => ?_
  refine .takeSigner fun authority _ ha hsigned => ?_
  refine .heldSeeds fun hbridge => ?_
  refine .heldWritable ?_
  refine .heldSeeds fun hroster => ?_
  refine .heldWritable ?_
  refine .heldSeeds fun hvault => ?_
  refine .heldWritable ?_
  refine .checkWritable ?_
  refine .perform (fun d n hstep => ?_) fun _ _ h =>
    .of_spares (Membership.remove_spares index authority.id.key) h
  refine .check (fun _ hown => ?_) fun _ h => by cases (require_eq_error.1 h).2; nofun
  have hb' := Ledger.books_of_load .bridge hb hbridge
  have hr' := Ledger.books_of_load .roster hr hroster
  have hv' := Ledger.books_of_load .vault hv hvault
  have hown : d.entry.owner = owner.id.key := require_eq_ok.1 hown
  obtain ⟨-, e, hleave, hsettle⟩ := Membership.remove_eq_ok hstep
  have hchange := Roster.Change.of_remove hleave
  have hne : AccountId.vault ≠ owner.id := by
    -- the owner did not sign now, but it did when it took its slot
    intro heq
    refine hvacant r hr' index.toNat e (Roster.remove_eq_ok hleave).1 ?_
    rw [← (Membership.settle_eq_ok hsettle).2.1, hown, ← heq]
  have heffect : Effect env A (m.ledger.spendable .vault) m.ledger.books _ _ _ :=
    .removeRelayer ⟨authority, ha, hsigned, rfl⟩ hb' hr' hv' hown hstep
  unfold Exec.payOut
  rw [hvault]
  refine .assoc (.onLedger (fun _ l hwithdraw => ?_) fun _ _ h =>
    .of_withdraw heffect (Nat.le_refl _) h)
  refine .assoc (.emit (.note ?_))
  refine .heldSave .bridge hbridge ?_
  refine .last (.heldSave .roster hroster (.pure ?_))
  exact .of_paidRelayer hk hwithdraw hne hb' hr' hchange heffect nofun rfl (by simp)

theorem claimCompensation_ends (hk : m.ledger.Kept) (hA : HostSigned A) (index : UInt8)
    (amount : Amount) :
    Ends A (Exec.claimCompensation index amount) m
      (fun _ m' => Commits env A ⟨.claimCompensation, index, amount⟩ m m')
      (Illiquid env A ⟨.claimCompensation, index, amount⟩ m) := by
  unfold Exec.claimCompensation
  refine .takeRecord fun _ b _ _ hb => ?_
  refine .takeRecord fun _ r _ _ hr => ?_
  refine .takeRecord fun _ v _ _ hv => ?_
  refine .takeSigner fun owner _ ho hsigned => ?_
  refine .heldSeeds fun hbridge => ?_
  refine .heldWritable ?_
  refine .heldSeeds fun hroster => ?_
  refine .heldWritable ?_
  refine .heldSeeds fun hvault => ?_
  refine .heldWritable ?_
  refine .checkWritable ?_
  refine .perform (fun _ n hstep => ?_) fun _ _ h =>
    .of_spares (Membership.claim_spares index owner.id.key amount) h
  have hb' := Ledger.books_of_load .bridge hb hbridge
  have hr' := Ledger.books_of_load .roster hr hroster
  have hv' := Ledger.books_of_load .vault hv hvault
  have hchange := Roster.Change.of_debitEarnings (Membership.claim_eq_ok hstep).2.1
  have heffect : Effect env A (m.ledger.spendable .vault) m.ledger.books _ _ _ :=
    .claimCompensation ⟨owner, ho, hsigned, rfl⟩ hb' hr' hv' hstep
  rw [hvault]
  refine .onLedger (fun _ l hwithdraw => ?_) fun _ _ h => .of_withdraw heffect (Nat.le_refl _) h
  refine .emit (.note ?_)
  refine .heldSave .bridge hbridge ?_
  refine .last (.heldSave .roster hroster (.pure ?_))
  exact .of_paidRelayer hk hwithdraw (hA.ne_vault ho hsigned) hb' hr' hchange heffect nofun rfl
    (by simp)

end Exec
end QuorumRelay
