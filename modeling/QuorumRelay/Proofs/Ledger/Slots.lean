import QuorumRelay.Proofs.Ledger.Bridge
import QuorumRelay.Proofs.Seats

/-!
# What becomes of the roster

Relayers come and go, earn and are paid, and a quorum is asked for.  This file
follows the roster through one instruction: `RosterStep` lists the six things
that can happen to it, each with who asked for it and with what was paid out, and
`Effect.rosterStep` finds one of them in each of the twenty-four cases of an
effect.

Three of the six need the word of the governing key or of the relayer itself, and
who gave it is in the step.  Of the others one credits earnings, which nobody has
to agree to, and none empties a slot.
-/

namespace QuorumRelay

section

variable (A : List Passed) (b : Bridge) (i : Instruction) (returns : Key → Nat → Prop) (r : Roster)

/-- **A relayer leaves its slot**, on its own word or on that of the governing key, and is paid its
stake and what the pool covers of its earnings. -/
structure Leaves (n : UInt8) (e : Relayer) (r' : Roster) : Prop where
  seat : r.Seated n.toNat e
  asked : i = ⟨.unregisterRelayer, n⟩ ∧ SignedBy A e.owner ∨
    i = ⟨.removeRelayer, n⟩ ∧ SignedBy A b.authority
  returned : returns e.owner (e.stake.toNat + min e.earned.toNat b.pool.toNat)
  result : r' = { r.setSlot n.toNat none with active := r.active - 1 }

/-- **A relayer claims some of its earnings**, and is paid as much. -/
structure Claims (n : UInt8) (amount : Amount) (e : Relayer) (r' : Roster) : Prop where
  seat : r.Seated n.toNat e
  asked : i = ⟨.claimCompensation, n, amount⟩
  signed : SignedBy A e.owner
  returned : returns e.owner amount.toNat
  earned : amount ≤ e.earned
  result : r' = r.setSlot n.toNat (some { e with earned := e.earned - amount })

/-- **What an instruction makes of the roster.** -/
inductive RosterStep : Roster → Prop
  | kept : RosterStep r
  | asked (required : UInt8) (authorized : SignedBy A b.authority) :
      RosterStep { r with required }
  | joined {n : Nat} {e : Relayer} {s r' : Roster} (authorized : SignedBy A b.authority)
      (placed : Roster.place e r = .ok n s) (slots : r'.slots = s.slots) : RosterStep r'
  | left {n : UInt8} {e : Relayer} {r' : Roster} (leaves : Leaves A b i returns r n e r') :
      RosterStep r'
  | claimed {n : UInt8} {amount : Amount} {e : Relayer} {r' : Roster}
      (claims : Claims A i returns r n amount e r') : RosterStep r'
  | credited {n : UInt8} {amount : Nat} {r' : Roster} (pays : Roster.Pays n amount r r') :
      RosterStep r'

end

section

variable {A : List Passed} {b : Bridge} {i : Instruction} {returns returns' : Key → Nat → Prop}
  {r r' : Roster} {n : UInt8} {e : Relayer} {amount : Amount}

/-- What a relayer is paid that is settled with. -/
theorem Membership.payout_of_settle {d : Departure} {b' : Bridge} (h : settle n e b = .ok d b') :
    d.payout.toNat = e.stake.toNat + min e.earned.toNat b.pool.toNat := by
  obtain ⟨-, -, -, hpayout⟩ := settle_eq_ok h
  rw [hpayout, Amount.toNat_min]

theorem Leaves.of_unregister {owner : AccountId} {d : Departure} {m : Membership}
    (hsigned : Signed A owner) (h : Membership.unregister n owner.key ⟨b, r⟩ = .ok d m)
    (hreturns : returns owner.key d.payout.toNat) :
    ∃ e, Leaves A b ⟨.unregisterRelayer, n⟩ returns r n e m.roster := by
  obtain ⟨e, hleave, hsettle⟩ := Membership.unregister_eq_ok h
  obtain ⟨hown, hremove⟩ := Roster.unregister_eq_ok hleave
  obtain ⟨hseat, -, -, hresult⟩ := Roster.remove_eq_ok hremove
  rw [← hown, Membership.payout_of_settle hsettle] at hreturns
  exact ⟨e, hseat, Or.inl ⟨rfl, hown ▸ hsigned.signedBy⟩, hreturns, hresult⟩

theorem Leaves.of_remove {owner authority : AccountId} {d : Departure} {m : Membership}
    (hsigned : Signed A authority) (hown : d.entry.owner = owner.key)
    (h : Membership.remove authority.key n ⟨b, r⟩ = .ok d m)
    (hreturns : returns owner.key d.payout.toNat) :
    ∃ e, Leaves A b ⟨.removeRelayer, n⟩ returns r n e m.roster := by
  obtain ⟨hcouncil, e, hremove, hsettle⟩ := Membership.remove_eq_ok h
  obtain ⟨hseat, -, -, hresult⟩ := Roster.remove_eq_ok hremove
  rw [← hown, (Membership.settle_eq_ok hsettle).2.1, Membership.payout_of_settle hsettle]
    at hreturns
  exact ⟨e, hseat, Or.inr ⟨rfl, Governance.signedBy_of_council hsigned hcouncil⟩, hreturns,
    hresult⟩

theorem Claims.of_claim {owner : AccountId} {m : Membership} {u : Unit} (hsigned : Signed A owner)
    (h : Membership.claim n owner.key amount ⟨b, r⟩ = .ok u m)
    (hreturns : returns owner.key amount.toNat) :
    ∃ e, Claims A ⟨.claimCompensation, n, amount⟩ returns r n amount e m.roster := by
  obtain ⟨-, hdebit, -⟩ := Membership.claim_eq_ok h
  obtain ⟨e, hseat, hown, -, hle, hresult⟩ := Roster.debitEarnings_eq_ok hdebit
  exact ⟨e, hseat, rfl, hown ▸ hsigned.signedBy, hown ▸ hreturns, hle, hresult⟩

/-- Crediting a submitter keeps the roster or credits one slot. -/
theorem RosterStep.of_creditSubmitter {s : Inbound.Submission} {count : Nat} {reward : Amount}
    (h : Inbound.creditSubmitter s count r = .ok reward r') : RosterStep A b i returns r r' := by
  rcases Inbound.creditSubmitter_eq_ok h with ⟨rfl, -⟩ | ⟨index, -, -, hcredit⟩
  · exact .kept
  · exact .credited (Roster.credit_eq_ok.1 hcredit)

/-- **A relayer stays and loses nothing that it earned**, unless it leaves or claims. -/
theorem RosterStep.seat (h : RosterStep A b i returns r r') {m : Nat} {e : Relayer}
    (he : r.Seated m e) :
    (∃ e', r'.Seated m e' ∧ Roster.SameRelayer e e' ∧ e.earned ≤ e'.earned) ∨
      ∃ n : UInt8, n.toNat = m ∧ (Leaves A b i returns r n e r' ∨
        ∃ amount, Claims A i returns r n amount e r') := by
  cases h with
  | kept | asked => exact Or.inl ⟨e, he, .refl e, UInt64.le_refl _⟩
  | joined authorized placed slots =>
    refine Or.inl ⟨e, ?_, .refl e, UInt64.le_refl _⟩
    rw [Roster.Seated, slots]
    exact (Roster.seated_place placed).2 (Or.inr he)
  | left leaves =>
    rename_i n e₁
    by_cases hm : m = n.toNat
    · subst hm
      obtain rfl := he.unique leaves.seat
      exact Or.inr ⟨n, rfl, Or.inl leaves⟩
    · refine Or.inl ⟨e, ?_, .refl e, UInt64.le_refl _⟩
      rw [leaves.result]
      exact leaves.seat.setSlot_of_ne hm he none
  | claimed claims =>
    rename_i n amount e₁
    by_cases hm : m = n.toNat
    · subst hm
      obtain rfl := he.unique claims.seat
      exact Or.inr ⟨n, rfl, Or.inr ⟨amount, claims⟩⟩
    · refine Or.inl ⟨e, ?_, .refl e, UInt64.le_refl _⟩
      rw [claims.result]
      exact claims.seat.setSlot_of_ne hm he _
  | credited pays =>
    rename_i n amount
    obtain ⟨e₁, earned, hseat, hearned, rfl⟩ := pays
    refine Or.inl ?_
    by_cases hm : m = n.toNat
    · subst hm
      obtain rfl := he.unique hseat
      refine ⟨{ e₁ with earned }, hseat.setSlot _, ⟨rfl, rfl, rfl, rfl⟩,
        UInt64.le_iff_toNat_le.2 ?_⟩
      show e₁.earned.toNat ≤ earned.toNat
      omega
    · exact ⟨e, hseat.setSlot_of_ne hm he _, .refl e, UInt64.le_refl _⟩

end

/-! ## All instructions -/

variable {env : Environment} {A : List Passed} {spendable : Amount} {before after : Books}
  {i : Instruction} {t : Trace} {returns : Key → Nat → Prop} {b : Bridge} {r : Roster}

/-- **Every instruction makes one step of the roster.** -/
theorem Effect.rosterStep (h : Effect env A spendable before i after t)
    (hreturns : ∀ key amount, t.Returns key amount → returns key amount)
    (hb : before .bridge = some b) (hr : before .roster = some r) :
    ∃ r', after .roster = some r' ∧ RosterStep A b i returns r r' := by
  cases h with
  | createBridge received signed absent step =>
    rw [absent.1] at hb
    cases hb
  | updateThreshold signed bridge roster step =>
    rename_i required authority b₁ r₁ r'
    obtain rfl : b₁ = b := by simpa [hb] using bridge.symm
    obtain rfl : r₁ = r := by simpa [hr] using roster.symm
    obtain ⟨hcouncil, hthreshold⟩ := Membership.updateThreshold_eq_ok step
    obtain ⟨-, -, rfl⟩ := Roster.setThreshold_eq_ok hthreshold
    exact ⟨_, Books.put_self .., .asked required (Governance.signedBy_of_council signed hcouncil)⟩
  | registerRelayer signed authorized bridge roster vault step =>
    rename_i publicKey stake owner authority b₁ r₁ r' v index
    obtain rfl : b₁ = b := by simpa [hb] using bridge.symm
    obtain rfl : r₁ = r := by simpa [hr] using roster.symm
    obtain ⟨hcouncil, hregister⟩ := Membership.register_eq_ok step
    obtain ⟨-, -, n, seated, hplace, -, -, rfl⟩ := Roster.register_eq_ok hregister
    exact ⟨_, Books.put_self ..,
      .joined (Governance.signedBy_of_council authorized hcouncil) hplace rfl⟩
  | unregisterRelayer signed bridge roster vault step =>
    rename_i index owner b₁ r₁ v d m
    obtain rfl : b₁ = b := by simpa [hb] using bridge.symm
    obtain rfl : r₁ = r := by simpa [hr] using roster.symm
    obtain ⟨e, hleaves⟩ := Leaves.of_unregister signed step (hreturns _ _ ⟨owner, rfl, rfl, rfl⟩)
    exact ⟨_, Books.put_self .., .left hleaves⟩
  | removeRelayer signed bridge roster vault own step =>
    rename_i index owner authority b₁ r₁ v d m
    obtain rfl : b₁ = b := by simpa [hb] using bridge.symm
    obtain rfl : r₁ = r := by simpa [hr] using roster.symm
    obtain ⟨e, hleaves⟩ := Leaves.of_remove signed own step (hreturns _ _ ⟨owner, rfl, rfl, rfl⟩)
    exact ⟨_, Books.put_self .., .left hleaves⟩
  | claimCompensation signed bridge roster vault step =>
    rename_i index amount owner b₁ r₁ v m
    obtain rfl : r₁ = r := by simpa [hr] using roster.symm
    obtain ⟨e, hclaims⟩ := Claims.of_claim signed step (hreturns _ _ ⟨owner, rfl, rfl, rfl⟩)
    exact ⟨_, Books.put_self .., .claimed hclaims⟩
  | processMessage given signed bridge chain roster receiptHeld vault cursorHeld named own evidence
      liquid step payment =>
    rename_i digest m attestations submitter b₁ c r₁ receipt v cursor proven liquidity executor
      world o s payments
    obtain rfl : r₁ = r := by simpa [hr] using roster.symm
    refine ⟨s.roster, ?_, .of_creditSubmitter step.credited⟩
    rw [Books.move_of_ne (q := .roster) nofun]
    simp [Books.put_of_ne]
  | processBatch given signed bridge chain roster vault receiptsHeld evidence liquid step payment =>
    rename_i messages attestations extras submitter b₁ c r₁ v receipts ds proven liquidity executors
      world o s payments
    obtain rfl : r₁ = r := by simpa [hr] using roster.symm
    refine ⟨s.roster, Books.put_self .., ?_⟩
    rcases step.ran.1 with hsame | ⟨count, total, hcredit⟩
    · rw [show s.roster = r₁ from hsame]
      exact .kept
    · exact .of_creditSubmitter hcredit
  | _ => exact ⟨r, by simpa [Books.put_of_ne] using hr, .kept⟩

end QuorumRelay
