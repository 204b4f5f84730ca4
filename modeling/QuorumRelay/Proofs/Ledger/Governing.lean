import QuorumRelay.Proofs.Ledger.Commit
import QuorumRelay.Proofs.Membership

/-!
# Instructions of the governor, committed
-/

namespace QuorumRelay

/-- The vault's record fills its account. -/
theorem Vault.length_write {v : Vault} : (Vault.record.write v).length = Vault.record.size := by
  rw [Record.write, List.length_append, Bytes.length_toList]
  rfl

/-- Writing the three records of a new bridge leaves the size of the vault's account. -/
theorem length_vault_of_writes {l : Ledger} {b : Bridge} {v : Vault} {r : Roster}
    (h : (l.account .vault).data.length = Vault.record.size) :
    ((((l.write .bridge b).write .vault v).write .roster r).account .vault).data.length =
      Vault.record.size := by
  have hbridge : (l.write .bridge b).account .vault = l.account .vault :=
    Ledger.account_write_of_ne (by simp)
  have hroster : (((l.write .bridge b).write .vault v).write .roster r).account .vault =
      ((l.write .bridge b).write .vault v).account .vault := Ledger.account_write_of_ne (by simp)
  rw [hroster, Ledger.length_data_write (p := .vault), hbridge, h]
  rw [hbridge, h]
  exact Nat.le_of_eq Vault.length_write

namespace Exec

variable {env : Environment} {A : List Passed} {m : Machine}

theorem createBridge_ends (hk : m.ledger.Kept) (hA : HostSigned A) (settings : Bridge.Settings) :
    Ends A (Exec.createBridge settings) m
      (fun _ m' => Commits env A ⟨.createBridge, settings⟩ m m') fun _ => True := by
  unfold Exec.createBridge
  refine .takeFresh fun bridge _ _ => ?_
  refine .takeFresh fun vault _ _ => ?_
  refine .takeFresh fun roster _ _ => ?_
  refine .take fun executor _ _ => ?_
  refine .takeSigner fun authority _ ha hsigned => ?_
  refine .takeSystemProgram fun _ => ?_
  refine .init fun hbridge l₁ hb => ?_
  refine .init fun hvault l₂ hv => ?_
  refine .init fun hroster l₃ hr => ?_
  refine .checkSeeds fun _ => ?_
  refine .checkWritable ?_
  refine .check (fun b hstep => ?_) fun _ _ => trivial
  refine .note ?_
  refine .heldSave .bridge hbridge ?_
  refine .heldSave .vault hvault ?_
  refine .last (.heldSave .roster hroster (.pure ?_))
  have hne := hA.ne_vault ha hsigned
  simp only [Machine.handing_ledger, Machine.holding_ledger] at hb hv hr
  have habsent : m.ledger.books .bridge = none ∧ m.ledger.books .vault = none ∧
      m.ledger.books .roster = none := by
    refine ⟨Ledger.absent_of_created .bridge hb, ?_, ?_⟩
    · rw [← hb.keeps.books]
      exact Ledger.absent_of_created .vault hv
    · rw [← hb.keeps.books, ← hv.keeps.books]
      exact Ledger.absent_of_created .roster hr
  have hvault : l₃.lamports .vault = l₂.lamports .vault := hr.others .vault hne (by simp)
  have hgrows : m.ledger.lamports .vault ≤ l₃.lamports .vault := by
    rw [hvault, ← hb.others .vault hne (by simp)]
    exact hv.grows (Ne.symm hne)
  have hsize : (l₃.account .vault).data.length = Vault.record.size := by
    rw [(hr.keeps.stays .vault hv.owns).2, hv.data, List.length_replicate]
  have hamends := (((Ledger.Amends.refl m.ledger).extend hb.keeps).extend hv.keeps).extend
    hr.keeps
  have hamends := hamends.write .bridge
    (v := { b with vaultBump := derivedBump, executorBump := derivedBump, bump := derivedBump })
    (hr.keeps.owns (hv.keeps.owns hb.owns)) trivial nofun
  have hamends := hamends.write .vault (v := { bump := derivedBump })
    (Ledger.owns_write.2 (hr.keeps.owns hv.owns)) trivial
    fun _ ho => hv.not_owns (hb.keeps.owns ho)
  have hfits : Place.roster.Fits { ({} : Roster) with bump := derivedBump } := by
    show ([] : List (Option Relayer)).length < 2 ^ 32
    decide
  have hamends := hamends.write .roster (Ledger.owns_write.2 (Ledger.owns_write.2 hr.owns)) hfits
    nofun
  have heffect : Effect env A (m.ledger.spendable .vault) m.ledger.books _ _ _ :=
    .createBridge (l₃.lamports .vault - m.ledger.lamports .vault) ⟨authority, ha, hsigned, rfl⟩
      habsent hstep
  refine .of_amends hk hamends heffect ?_ (fun _ => rfl) (fun _ => ?_) (by simp)
    (.of_unpaid rfl rfl)
  · simp only [Machine.writing_ledger, Machine.noting_ledger, Machine.holding_ledger,
      Ledger.lamports_of_write, paid, List.map_nil, List.sum_nil]
    omega
  · simp only [Machine.writing_ledger, Machine.noting_ledger, Machine.holding_ledger,
      Ledger.lamports_of_write, length_vault_of_writes hsize]
    rw [hvault]
    exact hv.funded (Ne.symm hne)

theorem configureChain_ends (hk : m.ledger.Kept) (hA : HostSigned A) (id : ChainId)
    (limits : Chain.Limits) :
    Ends A (Exec.configureChain id limits) m
      (fun _ m' => Commits env A ⟨.configureChain, id, limits⟩ m m') fun _ => True := by
  unfold Exec.configureChain
  refine .takeRecord fun p b _ _ hb => ?_
  refine .takeFresh fun q _ _ => ?_
  refine .takeSigner fun authority _ ha hsigned => ?_
  refine .takeSystemProgram fun _ => ?_
  refine .initIfNeeded fun hchain c l hopened => ?_
  refine .heldSeeds fun hbridge => ?_
  refine .checkWritable ?_
  refine .perform (fun _ c' hstep => ?_) fun _ _ _ => trivial
  refine .emit (.note ?_)
  refine .last (.heldSave (.chain id) hchain (.pure ?_))
  have hb' := Ledger.books_of_load .bridge hb hbridge
  have hholds := Ledger.holds_of_opened (.chain id) hopened
  have howns := Ledger.owns_of_opened (.chain id) hopened
  have hothers := Ledger.lamports_of_opened (.chain id) hopened (hA.ne_vault ha hsigned) (by simp)
  have hamends := (Ledger.Amends.refl m.ledger).extend
    (Ledger.extends_of_opened (.chain id) hopened)
  have hamends := hamends.write (.chain id) (v := { c' with bump := derivedBump }) howns trivial
    nofun
  have heffect : Effect env A (m.ledger.spendable .vault) m.ledger.books _ _ _ :=
    .configureChain ⟨authority, ha, hsigned, rfl⟩ hb' hholds hstep
  exact .of_unpaid hk hamends heffect nofun (by simp [hothers]) (by simp)

theorem setChainActive_ends (hk : m.ledger.Kept) (id : ChainId) (active : Bool) :
    Ends A (Exec.setChainActive id active) m
      (fun _ m' => Commits env A ⟨.setChainActive, id, active⟩ m m') fun _ => True := by
  unfold Exec.setChainActive
  refine .takeRecord fun p b _ _ hb => ?_
  refine .takeRecord fun q c _ _ hc => ?_
  refine .takeSigner fun authority _ ha hsigned => ?_
  refine .heldSeeds fun hbridge => ?_
  refine .heldSeeds fun hchain => ?_
  refine .heldWritable ?_
  refine .perform (fun _ c' hstep => ?_) fun _ _ _ => trivial
  refine .emit (.note ?_)
  refine .last (.heldSave (.chain id) hchain (.pure ?_))
  have hc' := Ledger.books_of_load (.chain id) hc hchain
  have hb' := Ledger.books_of_load .bridge hb hbridge
  have hamends := (Ledger.Amends.refl m.ledger).change (.chain id) (v := c') hc' trivial nofun
  have heffect : Effect env A (m.ledger.spendable .vault) m.ledger.books _ _ _ :=
    .setChainActive ⟨authority, ha, hsigned, rfl⟩ hb' hc' hstep
  exact .of_unpaid hk hamends heffect nofun (by simp) (by simp)

theorem updateThreshold_ends (hk : m.ledger.Kept) (required : UInt8) :
    Ends A (Exec.updateThreshold required) m
      (fun _ m' => Commits env A ⟨.updateThreshold, required⟩ m m') fun _ => True := by
  unfold Exec.updateThreshold
  refine .takeRecord fun p b _ _ hb => ?_
  refine .takeRecord fun q r _ _ hr => ?_
  refine .takeSigner fun authority _ ha hsigned => ?_
  refine .heldSeeds fun hbridge => ?_
  refine .heldSeeds fun hroster => ?_
  refine .heldWritable ?_
  refine .perform (fun _ r' hstep => ?_) fun _ _ _ => trivial
  refine .emit (.note ?_)
  refine .last (.heldSave .roster hroster (.pure ?_))
  have hr' := Ledger.books_of_load .roster hr hroster
  have hfits : Place.roster.Fits r' := by
    have hfits := Ledger.fits_of_entry hr'
    obtain ⟨-, -, rfl⟩ := Roster.setThreshold_eq_ok (Membership.updateThreshold_eq_ok hstep).2
    exact hfits
  have hb' := Ledger.books_of_load .bridge hb hbridge
  have hamends := (Ledger.Amends.refl m.ledger).change .roster hr' hfits nofun
  have heffect : Effect env A (m.ledger.spendable .vault) m.ledger.books _ _ _ :=
    .updateThreshold ⟨authority, ha, hsigned, rfl⟩ hb' hr' hstep
  exact .of_unpaid hk hamends heffect nofun (by simp) (by simp)

theorem setFeeSchedule_ends (hk : m.ledger.Kept) (fees : FeeSchedule) :
    Ends A (Exec.setFeeSchedule fees) m
      (fun _ m' => Commits env A ⟨.setFeeSchedule, fees⟩ m m') fun _ => True := by
  unfold Exec.setFeeSchedule
  refine .takeRecord fun p b _ _ hb => ?_
  refine .takeSigner fun authority _ ha hsigned => ?_
  refine .heldSeeds fun hbridge => ?_
  refine .heldWritable ?_
  refine .perform (fun _ b' hstep => ?_) fun _ _ _ => trivial
  refine .emit (.note ?_)
  refine .last (.heldSave .bridge hbridge (.pure ?_))
  have hb' := Ledger.books_of_load .bridge hb hbridge
  have hamends := (Ledger.Amends.refl m.ledger).change .bridge (v := b') hb' trivial nofun
  have heffect : Effect env A (m.ledger.spendable .vault) m.ledger.books _ _ _ :=
    .setFeeSchedule ⟨authority, ha, hsigned, rfl⟩ hb' hstep
  exact .of_unpaid hk hamends heffect nofun (by simp) (by simp)

theorem setAuthority_ends (hk : m.ledger.Kept) (newAuthority : Key) :
    Ends A (Exec.setAuthority newAuthority) m
      (fun _ m' => Commits env A ⟨.setAuthority, newAuthority⟩ m m') fun _ => True := by
  unfold Exec.setAuthority
  refine .takeRecord fun p b _ _ hb => ?_
  refine .takeSigner fun authority _ ha hsigned => ?_
  refine .heldSeeds fun hbridge => ?_
  refine .heldWritable ?_
  refine .perform (fun previous b' hstep => ?_) fun _ _ _ => trivial
  refine .emit (.note ?_)
  refine .last (.heldSave .bridge hbridge (.pure ?_))
  have hb' := Ledger.books_of_load .bridge hb hbridge
  have hamends := (Ledger.Amends.refl m.ledger).change .bridge (v := b') hb' trivial nofun
  have heffect : Effect env A (m.ledger.spendable .vault) m.ledger.books _ _ _ :=
    .setAuthority ⟨authority, ha, hsigned, rfl⟩ hb' hstep
  exact .of_unpaid hk hamends heffect nofun (by simp) (by simp)

end Exec
end QuorumRelay
