import QuorumRelay.Proofs.Ledger.Payouts
import QuorumRelay.Proofs.Ledger.Prepaid
import QuorumRelay.Proofs.Ledger.Slots

/-!
# What leaves the vault, and on whose word

Lamports leave the vault in two ways.  Five instructions pay them back to those
they belong to: a sponsor, a relayer, or the sender of a message that was not
delivered.  Two deliver messages and pay their values.  `Repays` lists the first
kind, each with the record that says whom the lamports belong to and with the
signature that was given for them, and `Effect.outflow` says that there is no
other.
-/

namespace QuorumRelay

section

variable (A : List Passed) (i : Instruction) (returns : Key → Nat → Prop) (before after : Books)

/-- **The sender of a message takes its value back**, while the message is open, and is paid as
much. -/
structure Reclaims (n : Nonce) (m : OutboundMessage) : Prop where
  asked : i = ⟨.reclaim, n⟩
  held : before (.outbound n) = some m
  unended : m.status.isOpen = true
  signed : SignedBy A m.sender
  returned : returns m.sender m.value.toNat
  stored : after (.outbound n) = some { m with status := .failed }

/-- **The vault pays lamports back to those they belong to.** -/
inductive Repays : Prop
  | withdrawn {s s' : Sponsor} {amount : Amount} (held : before (.sponsor s.owner) = some s)
      (stored : after (.sponsor s.owner) = some s')
      (withdraws : Withdraws A i returns s s' amount)
  | left {b : Bridge} {r r' : Roster} {n : UInt8} {e : Relayer} (bridge : before .bridge = some b)
      (held : before .roster = some r) (stored : after .roster = some r')
      (leaves : Leaves A b i returns r n e r')
  | claimed {r r' : Roster} {n : UInt8} {amount : Amount} {e : Relayer}
      (held : before .roster = some r) (stored : after .roster = some r')
      (claims : Claims A i returns r n amount e r')
  | reclaimed {n : Nonce} {m : OutboundMessage} (reclaims : Reclaims A i returns before after n m)

end

variable {env : Environment} {A : List Passed} {spendable : Amount} {before after : Books}
  {i : Instruction} {t : Trace} {returns : Key → Nat → Prop}

/-- **What is paid to a user belongs to it, and it or the governing key has asked for that.** -/
theorem Effect.outflow (h : Effect env A spendable before i after t)
    (hreturns : ∀ key amount, t.Returns key amount → returns key amount) :
    t.returned = 0 ∨ t.payments = [] ∧ Repays A i returns before after := by
  cases h with
  | withdrawSponsor signed bridge sponsor vault own step books place =>
    rename_i amount owner b b' s s' v
    rw [← own] at sponsor place ⊢
    have hwithdraws : Withdraws A ⟨.withdrawSponsor, amount⟩ returns s s' amount :=
      .of_withdraw signed own step place (hreturns _ _ ⟨owner, rfl, rfl, rfl⟩)
    exact Or.inr ⟨rfl, .withdrawn sponsor (Books.put_self ..) hwithdraws⟩
  | reclaim signed bridge message vault step =>
    rename_i nonce sender b m v refund s
    obtain ⟨hsender, hopen, -, hrefund, hmessage, -⟩ := Settlement.reclaim_eq_ok step
    have hreturned := hreturns _ _ ⟨sender, rfl, rfl, rfl⟩
    rw [← hsender, hrefund] at hreturned
    refine Or.inr ⟨rfl, .reclaimed ⟨rfl, message, hopen, ?_, hreturned, ?_⟩⟩
    · exact hsender ▸ signed.signedBy
    · rw [hmessage]
      exact Books.put_self ..
  | unregisterRelayer signed bridge roster vault step =>
    rename_i index owner b r v d m
    obtain ⟨e, hleaves⟩ := Leaves.of_unregister signed step (hreturns _ _ ⟨owner, rfl, rfl, rfl⟩)
    exact Or.inr ⟨rfl, .left bridge roster (Books.put_self ..) hleaves⟩
  | removeRelayer signed bridge roster vault own step =>
    rename_i index owner authority b r v d m
    obtain ⟨e, hleaves⟩ := Leaves.of_remove signed own step (hreturns _ _ ⟨owner, rfl, rfl, rfl⟩)
    exact Or.inr ⟨rfl, .left bridge roster (Books.put_self ..) hleaves⟩
  | claimCompensation signed bridge roster vault step =>
    rename_i index amount owner b r v m
    obtain ⟨e, hclaims⟩ := Claims.of_claim signed step (hreturns _ _ ⟨owner, rfl, rfl, rfl⟩)
    exact Or.inr ⟨rfl, .claimed roster (Books.put_self ..) hclaims⟩
  | _ => exact Or.inl rfl

/-- An instruction that delivers pays no user and is paid by none. -/
theorem Effect.of_delivers (h : Effect env A spendable before i after t)
    (hkind : i.kind.delivers = true) :
    t.received = 0 ∧ t.returned = 0 ∧ ∃ b, before .bridge = some b := by
  cases h with
  | processMessage given signed bridge => exact ⟨rfl, rfl, _, bridge⟩
  | processBatch given signed bridge => exact ⟨rfl, rfl, _, bridge⟩
  | _ => cases hkind

end QuorumRelay
