import QuorumRelay.Proofs.Ledger.Commit
import QuorumRelay.Proofs.Ledger.Payouts

/-!
# The invariant of the ledger

Four things hold of every ledger that the program has run on (`Ledger.Sound`).
What it owns is where it belongs (`Ledger.Kept`), receipts are where their
digests say (`Books.Bound`), the vault is nobody's slot (`Books.VaultUnseated`),
and the vault holds its rent and what it owes (`Ledger.Solvent`).

The walks through the instructions need the first three, and the fourth follows
from the equation of lamports and obligations.  A committed instruction keeps all
four (`Commits.sound`), and so does what others do (`Ledger.Sound.outside`).
-/

namespace QuorumRelay

namespace Ledger

/-- What the vault owes by the books of a ledger; nothing before there is a bridge. -/
def owed (l : Ledger) : Nat :=
  match l.books .bridge, l.books .roster with
  | some b, some r => owing b r
  | _, _ => 0

/-- What the vault holds above what it owes. -/
def surplus (l : Ledger) : Int := l.lamports .vault - l.owed

/-- What keeps the vault's account free of rent. -/
def vaultRent (l : Ledger) : Nat := (rentMinimum (l.account .vault).data.length).toNat

/-- **The vault holds its rent and what it owes**, once there is a bridge. -/
def Solvent (l : Ledger) : Prop :=
  ∀ b, l.books .bridge = some b → ∃ v r, l.books .vault = some v ∧ l.books .roster = some r ∧
    l.vaultRent + owing b r ≤ l.lamports .vault

/-- **What holds of every ledger that the program has run on.** -/
structure Sound (l : Ledger) : Prop where
  kept : l.Kept
  bound : l.books.Bound
  unseated : l.books.VaultUnseated
  solvent : l.Solvent

variable {l l' : Ledger} {b : Bridge} {r : Roster}

theorem owed_eq (hb : l.books .bridge = some b) (hr : l.books .roster = some r) :
    l.owed = owing b r := by
  rw [owed, hb, hr]

theorem toNat_spendable (l : Ledger) :
    (l.spendable .vault).toNat = l.lamports .vault - l.vaultRent := by
  rw [spendable, Amount.toNat_monus, lamports, vaultRent]

/-- Where there is a bridge there is its vault's record. -/
theorem Sound.owns_vault (hs : l.Sound) (hb : l.books .bridge = some b) : l.Owns .vault := by
  obtain ⟨v, _, hv, -⟩ := hs.solvent b hb
  exact owns_of_entry hv

theorem Sound.vaultRent_le (hs : l.Sound) (hb : l.books .bridge = some b)
    (hr : l.books .roster = some r) : l.vaultRent + owing b r ≤ l.lamports .vault := by
  obtain ⟨_, r', -, hr', hle⟩ := hs.solvent b hb
  obtain rfl : r' = r := by simpa [hr] using hr'.symm
  exact hle

/-- What is owed can be spent. -/
theorem Sound.owing_le (hs : l.Sound) (hb : l.books .bridge = some b)
    (hr : l.books .roster = some r) : owing b r ≤ (l.spendable .vault).toNat := by
  have hle := hs.vaultRent_le hb hr
  rw [toNat_spendable]
  omega

/-- Others leave the books alone and can only add to the vault. -/
theorem Sound.outside (hs : l.Sound) (ho : l.Outside l') : l'.Sound where
  kept := ho.keeps.kept hs.kept
  bound := by
    rw [ho.keeps.books]
    exact hs.bound
  unseated := by
    rw [ho.keeps.books]
    exact hs.unseated
  solvent b hb := by
    rw [ho.keeps.books] at hb ⊢
    obtain ⟨v, r, hv, hr, hle⟩ := hs.solvent b hb
    refine ⟨v, r, hv, hr, ?_⟩
    have hvault := hs.owns_vault hb
    rw [vaultRent, (ho.keeps.stays .vault hvault).2]
    exact Nat.le_trans hle (ho.lamports .vault hvault)

/-- **A ledger on which the program owns nothing** is one that it has not run on. -/
def Fresh (l : Ledger) : Prop := ∀ id, ¬ l.Owns id

theorem Fresh.books_eq_none (h : l.Fresh) (p : Place) : l.books p = none :=
  entry_eq_none_of_not_owns (h p.id)

theorem Fresh.sound (h : l.Fresh) : l.Sound where
  kept id ho := absurd ho (h id)
  bound d r hr := by
    rw [h.books_eq_none] at hr
    cases hr
  unseated r hr := by
    rw [h.books_eq_none] at hr
    cases hr
  solvent b hb := by
    rw [h.books_eq_none] at hb
    cases hb

end Ledger

/-! ## Who owns slots -/

variable {env : Environment} {A : List Passed} {spendable : Amount} {before after : Books}
  {i : Instruction} {t : Trace} {b : Bridge} {r : Roster} {m m' : Machine}

/-- **Only signers get slots**, so the vault never does. -/
theorem Effect.unseated (h : Effect env A spendable before i after t) (hA : HostSigned A)
    (hvacant : before.VaultUnseated) : after.VaultUnseated := by
  intro r' hr'
  cases h with
  | createBridge =>
    rw [Books.put_self] at hr'
    cases hr'
    intro n e he
    simp [Roster.Seated] at he
  | updateThreshold signed bridge roster step =>
    rw [Books.put_self] at hr'
    cases hr'
    exact (hvacant _ roster).setThreshold (Membership.updateThreshold_eq_ok step).2
  | registerRelayer signed authorized bridge roster vault step =>
    rw [Books.put_self] at hr'
    cases hr'
    obtain ⟨p, hp, hsigned, rfl⟩ := signed
    exact (hvacant _ roster).register (hA p hp hsigned) (Membership.register_eq_ok step).2
  | unregisterRelayer signed bridge roster vault step =>
    rw [Books.put_self] at hr'
    cases hr'
    obtain ⟨e, hleave, -⟩ := Membership.unregister_eq_ok step
    exact (hvacant _ roster).remove (Roster.unregister_eq_ok hleave).2
  | removeRelayer signed bridge roster vault own step =>
    rw [Books.put_self] at hr'
    cases hr'
    obtain ⟨-, e, hleave, -⟩ := Membership.remove_eq_ok step
    exact (hvacant _ roster).remove hleave
  | claimCompensation signed bridge roster vault step =>
    rw [Books.put_self] at hr'
    cases hr'
    exact (hvacant _ roster).debitEarnings (Membership.claim_eq_ok step).2.1
  | processMessage given signed bridge chain roster receiptHeld vault cursorHeld named own evidence
      liquid step payment =>
    simp only [Books.move_of_ne, Books.put_of_ne, Books.put_self, ne_eq, reduceCtorEq,
      not_false_eq_true, implies_true, Option.some.injEq] at hr'
    rw [← hr']
    exact (hvacant _ roster).creditSubmitter step.credited
  | processBatch given signed bridge chain roster vault receiptsHeld evidence liquid step payment =>
    rw [Books.put_self] at hr'
    cases hr'
    rcases step.ran.1 with hsame | ⟨_, _, hcredit⟩
    · rw [hsame]
      exact hvacant _ roster
    · exact (hvacant _ roster).creditSubmitter hcredit
  | _ => exact hvacant r' (by simpa [Books.put_of_ne] using hr')

/-! ## Committed instructions -/

/-- **The vault's surplus changes by what an instruction confirms, pays for deliveries and is
given.** -/
theorem Commits.surplus (h : Commits env A i m m') (hs : m.ledger.Sound)
    (hb : m.ledger.books .bridge = some b) :
    ∃ t, Effect env A (m.ledger.spendable .vault) m.ledger.books i m'.ledger.books t ∧
      m'.attempts = m.attempts ++ t.attempts ∧ m'.payments = m.payments ++ t.payments ∧
      m'.ledger.surplus + paid t.payments =
        m.ledger.surplus + t.given + i.released m.ledger.books ∧
      (env.destinations.Quiet → t.given = 0) := by
  obtain ⟨t, heffect, hattempts, hpayments, -, hmoney, hquiet, -⟩ := h.effect
  refine ⟨t, heffect, hattempts, hpayments, ?_, hquiet⟩
  obtain ⟨_, r, -, hr, -⟩ := hs.solvent b hb
  obtain ⟨b', r', hb', hr', hbalance⟩ := heffect.balanced hb hr
  unfold Ledger.surplus
  rw [Ledger.owed_eq hb hr, Ledger.owed_eq hb' hr']
  omega

/-- **A committed instruction leaves the vault solvent.** -/
theorem Commits.solvent (h : Commits env A i m m') (hs : m.ledger.Sound) :
    m'.ledger.Solvent := by
  intro b' hb'
  obtain ⟨t, heffect, -, -, -, hmoney, -⟩ := h.effect
  cases hb : m.ledger.books .bridge with
  | none =>
    by_cases hkind : i.kind = .createBridge
    · obtain ⟨kind, args⟩ := i
      obtain rfl : kind = .createBridge := hkind
      obtain ⟨-, b, v, r, hb, hv, hr, howing⟩ := heffect.founded
      obtain rfl : b = b' := by simpa [hb'] using hb.symm
      refine ⟨v, r, hv, hr, ?_⟩
      rw [howing]
      exact h.funded rfl
    · rw [(heffect.standing hkind).1 hb] at hb'
      cases hb'
  | some b =>
    obtain ⟨v, r, hv, hr, hle⟩ := hs.solvent b hb
    have hkind : i.kind ≠ .createBridge := by
      obtain ⟨kind, args⟩ := i
      rintro rfl
      rw [heffect.founded.1] at hb
      cases hb
    obtain ⟨b₁, r', hb₁, hr', hbalance⟩ := heffect.balanced hb hr
    obtain rfl : b₁ = b' := by simpa [hb'] using hb₁.symm
    have hpaid := heffect.paid_le_surplus hb hr (hs.owing_le hb hr)
    rw [Ledger.toNat_spendable] at hpaid
    refine ⟨v, r', (heffect.standing hkind).2.trans hv, hr', ?_⟩
    rw [Ledger.vaultRent, h.vault (hs.owns_vault hb), ← Ledger.vaultRent]
    omega

/-- **A committed instruction keeps the invariant.** -/
theorem Commits.sound (h : Commits env A i m m') (hs : m.ledger.Sound) (hA : HostSigned A) :
    m'.ledger.Sound := by
  obtain ⟨t, heffect, -⟩ := h.effect
  exact ⟨h.kept, ReceiptStep.bound (heffect.receiptStep hs.bound) hs.bound,
    heffect.unseated hA hs.unseated, h.solvent hs⟩

/-- **Where the vault is solvent, no payment to users falls short.** -/
theorem Illiquid.not_sound (h : Illiquid env A i m .insufficientLiquidity) (hs : m.ledger.Sound)
    (hb : m.ledger.books .bridge = some b) : False := by
  obtain ⟨books, t, heffect, hshort⟩ := h rfl
  obtain ⟨_, r, -, hr, -⟩ := hs.solvent b hb
  have hreturned := heffect.returned_le hb hr
  have howing := hs.owing_le hb hr
  omega

end QuorumRelay
