import QuorumRelay.Ledger.Host
import QuorumRelay.Proofs.Ledger.Books

/-!
# What moving lamports leaves alone

Between taking records and writing them back, an instruction moves lamports and
creates accounts.  Neither changes a record.  This file gives that one name, for
it is also all that is asked of programs outside: a ledger *extends* another if
what the program owned it still owns, with the data it had, and what it owns
besides is blank (`Ledger.Extends`).  A ledger and its extension have the same
books (`Extends.books`).

## Lamports

The second half says where the lamports went.  All statements are about accounts
that differ: an account that pays itself is a case of its own everywhere, and it
is excluded where the host excludes it.
-/

namespace QuorumRelay
namespace Ledger

variable {l l' l₁ l₂ l₃ : Ledger} {id source target payer other : AccountId} {amount : Amount}
  {size : Nat} {u : Unit}

/-- The lamports of an account. -/
def lamports (l : Ledger) (id : AccountId) : Nat := (l.account id).lamports.toNat

/-- What can be spent depends on the lamports of the account and on its size alone. -/
theorem spendable_congr (hlamports : l'.lamports id = l.lamports id)
    (hsize : (l'.account id).data.length = (l.account id).data.length) :
    l'.spendable id = l.spendable id := by
  rw [spendable, spendable, hsize, UInt64.toNat_inj.1 hlamports]

/-! ## Extensions -/

/-- **What the program owned stays as it was, and what it owns besides is blank.** -/
structure Extends (l l' : Ledger) : Prop where
  stays : ∀ id, l.Owns id → l'.Owns id ∧ (l'.account id).data = (l.account id).data
  blank : ∀ id, ¬ l.Owns id → l'.Owns id → ∀ b ∈ (l'.account id).data, b = 0

namespace Extends

theorem refl (l : Ledger) : l.Extends l where
  stays _ h := ⟨h, rfl⟩
  blank _ h h' := absurd h' h

theorem trans (h : l₁.Extends l₂) (h' : l₂.Extends l₃) : l₁.Extends l₃ where
  stays id ho :=
    ⟨(h'.stays id (h.stays id ho).1).1,
      (h'.stays id (h.stays id ho).1).2.trans (h.stays id ho).2⟩
  blank id ho ho' b hb := by
    by_cases hmid : l₂.Owns id
    · rw [(h'.stays id hmid).2] at hb
      exact h.blank id ho hmid b hb
    · exact h'.blank id hmid ho' b hb

theorem owns (h : l.Extends l') (ho : l.Owns id) : l'.Owns id := (h.stays id ho).1

theorem entry (h : l.Extends l') (p : Place) : l'.entry p = l.entry p := by
  by_cases ho : l.Owns p.id
  · obtain ⟨ho', hdata⟩ := h.stays p.id ho
    exact entry_congr (Eq.trans ho' (Eq.symm ho)) hdata
  · rw [entry_eq_none_of_not_owns ho]
    by_cases ho' : l'.Owns p.id
    · exact entry_eq_none_of_blank (h.blank p.id ho ho')
    · exact entry_eq_none_of_not_owns ho'

/-- **An extension has the same books.** -/
theorem books (h : l.Extends l') : l'.books = l.books := funext h.entry

theorem kept (h : l.Extends l') (hk : l.Kept) : l'.Kept := by
  intro id ho'
  by_cases ho : l.Owns id
  · rw [(h.stays id ho).2]
    exact hk id ho
  · exact Or.inl (h.blank id ho ho')

end Extends

/-- Owners and data are the same everywhere, and the programs are. -/
def SameData (l l' : Ledger) : Prop :=
  ∀ id, (l'.account id).owner = (l.account id).owner ∧
    (l'.account id).data = (l.account id).data ∧
    (l'.account id).executable = (l.account id).executable

/-- Lamports have no part in what a ledger extends. -/
theorem SameData.extends (h : l.SameData l') : l.Extends l' where
  stays id ho := ⟨(h id).1.trans ho, (h id).2.1⟩
  blank id ho ho' := absurd ((h id).1.symm.trans ho') ho

theorem SameData.trans (h : l₁.SameData l₂) (h' : l₂.SameData l₃) : l₁.SameData l₃ := fun id =>
  ⟨(h' id).1.trans (h id).1, (h' id).2.1.trans (h id).2.1, (h' id).2.2.trans (h id).2.2⟩

theorem sameData_setLamports (l : Ledger) (id : AccountId) (x : Amount) :
    l.SameData (l.setLamports id x) := by
  intro other
  by_cases h : other = id
  · subst h
    rw [setLamports, account_put_self]
    exact ⟨rfl, rfl, rfl⟩
  · rw [setLamports, account_put_of_ne _ _ h]
    exact ⟨rfl, rfl, rfl⟩

@[simp] theorem lamports_setLamports_self (l : Ledger) (id : AccountId) (x : Amount) :
    (l.setLamports id x).lamports id = x.toNat := by
  rw [lamports, setLamports, account_put_self]

theorem lamports_setLamports_of_ne (l : Ledger) (x : Amount) (h : other ≠ id) :
    (l.setLamports id x).lamports other = l.lamports other := by
  rw [lamports, setLamports, account_put_of_ne _ _ h, lamports]

@[simp] theorem lamports_of_write (l : Ledger) (p : Place) (v : p.Value) (id : AccountId) :
    (l.write p v).lamports id = l.lamports id := by
  rw [lamports, lamports_write, lamports]

/-! ## Payments -/

/-- Lamports that went from one account to another, and nothing else that changed. -/
structure Paid (l : Ledger) (payer payee : AccountId) (amount : Nat) (l' : Ledger) : Prop where
  same : l.SameData l'
  debited : payer ≠ payee → l'.lamports payer + amount = l.lamports payer
  credited : payer ≠ payee → l'.lamports payee = l.lamports payee + amount
  others : ∀ id, id ≠ payer → id ≠ payee → l'.lamports id = l.lamports id

theorem Paid.zero (l : Ledger) (payer payee : AccountId) : l.Paid payer payee 0 l where
  same _ := ⟨rfl, rfl, rfl⟩
  debited _ := Nat.add_zero _
  credited _ := (Nat.add_zero _).symm
  others _ _ _ := rfl

/-- Lamports that left the vault for one account, whatever else happened. -/
structure PaidOut (l : Ledger) (payee : AccountId) (amount : Nat) (l' : Ledger) : Prop where
  debited : l'.lamports .vault + amount = l.lamports .vault
  credited : l'.lamports payee = l.lamports payee + amount
  others : ∀ id, id ≠ .vault → id ≠ payee → l'.lamports id = l.lamports id

/-- An amount left the vault for the account of a key. -/
def Returned (l l' : Ledger) (key : Key) (amount : Nat) : Prop :=
  ∃ user : AccountId, user.key = key ∧ l.PaidOut user amount l'

theorem Paid.paidOut {payee : AccountId} {paid : Nat} (h : l.Paid .vault payee paid l₁)
    (hne : AccountId.vault ≠ payee) (hafter : ∀ id, l'.lamports id = l₁.lamports id) :
    l.PaidOut payee paid l' where
  debited := (hafter .vault).symm ▸ h.debited hne
  credited := (hafter payee).trans (h.credited hne)
  others id hvault hpayee := (hafter id).trans (h.others id hvault hpayee)

/-- Two balances written one after the other are a payment. -/
theorem paid_setLamports {debited credited : Amount}
    (hd : debited.toNat + amount.toNat = l.lamports source)
    (hc : source ≠ target → credited.toNat = l.lamports target + amount.toNat) :
    l.Paid source target amount.toNat
      ((l.setLamports source debited).setLamports target credited) where
  same := (sameData_setLamports l source debited).trans (sameData_setLamports _ target credited)
  debited hne := by
    rw [lamports_setLamports_of_ne _ _ hne, lamports_setLamports_self, hd]
  credited hne := by
    rw [lamports_setLamports_self, hc hne]
  others id hs ht := by
    rw [lamports_setLamports_of_ne _ _ ht, lamports_setLamports_of_ne _ _ hs]

theorem transfer_eq_ok (h : transfer source target amount l = .ok u l') :
    l.Paid source target amount.toNat l' := by
  unfold transfer at h
  rw [get_bind] at h
  by_cases hshort : (l.account source).lamports < amount
  · simp only [hshort, if_true, throw_bind, reduceCtorEq] at h
  simp only [hshort, if_false] at h
  have hle : amount ≤ (l.account source).lamports := UInt64.not_lt.1 hshort
  have hle' : amount.toNat ≤ (l.account source).lamports.toNat := UInt64.le_iff_toNat_le.1 hle
  split at h
  · simp only [throw_bind, reduceCtorEq] at h
  · rename_i hfits
    simp only [set_eq_ok] at h
    subst h
    refine paid_setLamports ?_ fun hne => ?_
    · rw [UInt64.toNat_sub_of_le _ _ hle, lamports]
      omega
    · rw [setLamports, account_put_of_ne _ _ (Ne.symm hne)] at hfits ⊢
      rw [UInt64.toNat_ofNat_of_lt' (by simpa using hfits), lamports]

theorem deposit_eq_ok (h : deposit source target amount l = .ok u l') :
    l.Paid source target amount.toNat l' := by
  unfold deposit at h
  by_cases hzero : amount = 0
  · subst hzero
    simp only [if_true, pure_eq_ok] at h
    obtain ⟨-, rfl⟩ := h
    exact .zero l source target
  · simp only [hzero, if_false] at h
    exact transfer_eq_ok h

/-- What is paid out was there to be spent. -/
theorem withdraw_eq_ok (h : withdraw source target amount l = .ok u l') :
    (amount = 0 ∨ amount ≤ l.spendable source) ∧ l.Paid source target amount.toNat l' := by
  unfold withdraw at h
  by_cases hzero : amount = 0
  · subst hzero
    simp only [if_true, pure_eq_ok] at h
    obtain ⟨-, rfl⟩ := h
    exact ⟨Or.inl rfl, .zero l source target⟩
  · simp only [hzero, if_false, get_bind, require_bind_eq_ok, lift_bind_eq_ok, Amount.plus_eq_ok,
      set_eq_ok] at h
    obtain ⟨hle, credited, hcredited, rfl⟩ := h
    have hspend : amount.toNat ≤ (l.spendable source).toNat := UInt64.le_iff_toNat_le.1 hle
    rw [spendable, Amount.toNat_monus] at hspend
    refine ⟨Or.inr hle, paid_setLamports ?_ fun _ => hcredited⟩
    rw [UInt64.toNat_sub_of_le _ _ (UInt64.le_iff_toNat_le.2 (by omega)), lamports]
    omega

/-- Paying out is refused for want of liquidity only if there is less to be spent. -/
theorem withdraw_eq_refused
    (h : withdraw source target amount l = .error (.refused .insufficientLiquidity) l') :
    l.spendable source < amount := by
  unfold withdraw at h
  by_cases hzero : amount = 0
  · simp only [hzero, if_true, pure_ne_error] at h
  · simp only [hzero, if_false, get_bind, require_bind_eq_error, lift_bind_eq_error,
      Amount.plus_eq_error, set_ne_error, and_false, exists_false, or_false] at h
    rcases h with ⟨hle, -⟩ | ⟨-, ⟨-, hreason⟩, -⟩
    · exact UInt64.not_le.1 hle
    · cases hreason

/-- A payment that fails changes nothing. -/
theorem withdraw_eq_error {f : Fault} (h : withdraw source target amount l = .error f l') :
    l' = l := by
  unfold withdraw at h
  by_cases hzero : amount = 0
  · simp only [hzero, if_true, pure_ne_error] at h
  · simp only [hzero, if_false, get_bind, require_bind_eq_error, lift_bind_eq_error,
      set_ne_error, and_false, exists_false, or_false] at h
    rcases h with ⟨-, -, rfl⟩ | ⟨-, -, rfl⟩ <;> rfl

/-! ## New accounts -/

/-- An account that the program was given: it had no owner and no data, and has zeros now and
the lamports that keep it free of rent. -/
structure Created (l : Ledger) (payer id : AccountId) (size : Nat) (l' : Ledger) : Prop where
  unused : (l.account id).owner = .systemProgram ∧ (l.account id).data = []
  keeps : l.Extends l'
  owns : l'.Owns id
  data : (l'.account id).data = List.replicate size 0
  grows : payer ≠ id → l.lamports id ≤ l'.lamports id
  funded : payer ≠ id → (rentMinimum size).toNat ≤ l'.lamports id
  others : ∀ other, other ≠ payer → other ≠ id → l'.lamports other = l.lamports other
  programs : ∀ other, (l'.account other).executable = (l.account other).executable

theorem Created.not_owns (h : l.Created payer id size l') : ¬ l.Owns id := by
  simp [Owns, h.unused.1]

theorem checkUnused_eq_ok {a : Account} :
    checkUnused a = .ok u ↔ a.owner = .systemProgram ∧ a.data = [] := by
  unfold checkUnused
  split <;> simp_all

/-- Space is given, filled with zeros. -/
theorem allocate_eq_ok (h : allocate id size l = .ok u l') :
    l' = l.put id { l.account id with data := List.replicate size 0, owner := .bridgeProgram } := by
  unfold allocate at h
  rw [get_bind] at h
  split at h
  · simp only [throw_bind, reduceCtorEq] at h
  · simp only [set_eq_ok] at h
    exact h.symm

theorem extends_allocate (hfree : ¬ l.Owns id) : l.Extends
    (l.put id { l.account id with data := List.replicate size 0, owner := .bridgeProgram }) where
  stays other ho := by
    have hne : other ≠ id := fun h => hfree (h ▸ ho)
    rw [Owns, account_put_of_ne _ _ hne]
    exact ⟨ho, rfl⟩
  blank other ho ho' := by
    by_cases h : other = id
    · subst h
      rw [account_put_self]
      exact fun b hb => (List.mem_replicate.1 hb).2
    · rw [Owns, account_put_of_ne _ _ h] at ho'
      exact absurd ho' ho

/-- Paying for an account and giving it space creates it. -/
theorem created_of_paid {fee : Nat} (hpaid : l.Paid payer id fee l₁)
    (hunused : (l.account id).owner = .systemProgram ∧ (l.account id).data = [])
    (hfund : payer ≠ id → (rentMinimum size).toNat ≤ l.lamports id + fee)
    (h : allocate id size l₁ = .ok u l') : l.Created payer id size l' := by
  obtain rfl := allocate_eq_ok h
  have hfree : ¬ l₁.Owns id := by
    rw [Owns, (hpaid.same id).1, hunused.1]
    simp
  have hlamports : (l₁.put id { l₁.account id with
      data := List.replicate size 0, owner := .bridgeProgram }).lamports id = l₁.lamports id := by
    rw [lamports, account_put_self, lamports]
  refine ⟨hunused, hpaid.same.extends.trans (extends_allocate hfree), ?_, ?_, ?_, ?_, ?_, ?_⟩
  · rw [Owns, account_put_self]
  · rw [account_put_self]
  · intro hne
    rw [hlamports, hpaid.credited hne]
    exact Nat.le_add_right _ _
  · intro hne
    rw [hlamports, hpaid.credited hne]
    exact hfund hne
  · intro other hp hid
    rw [lamports, account_put_of_ne _ _ hid]
    exact hpaid.others other hp hid
  · intro other
    rw [← (hpaid.same other).2.2]
    by_cases h : other = id
    · subst h
      rw [account_put_self]
    · rw [account_put_of_ne _ _ h]

/-- **An account is created only where there was none.** -/
theorem create_eq_ok (h : create payer id size l = .ok u l') : l.Created payer id size l' := by
  unfold create at h
  rw [get_bind] at h
  by_cases hempty : (l.account id).lamports = 0
  · simp only [hempty, if_true, lift_bind_eq_ok, checkUnused_eq_ok, exists_const,
      bind_eq_ok (x := transfer _ _ _)] at h
    obtain ⟨hunused, _, l₁, htransfer, h⟩ := h
    exact created_of_paid (transfer_eq_ok htransfer) hunused (fun _ => Nat.le_add_left _ _) h
  · simp only [hempty, if_false] at h
    by_cases hself : payer = id
    · simp only [hself, if_true, throw_bind, reduceCtorEq] at h
    · simp only [hself, if_false, bind_eq_ok (x := deposit _ _ _), get_bind, lift_bind_eq_ok,
        checkUnused_eq_ok, exists_const] at h
      obtain ⟨_, l₁, hdeposit, hunused, h⟩ := h
      have hpaid := deposit_eq_ok hdeposit
      rw [(hpaid.same id).1, (hpaid.same id).2.1] at hunused
      refine created_of_paid hpaid hunused (fun _ => ?_) h
      rw [Amount.toNat_monus, lamports]
      omega

/-- Creating is refused by the host, never by the program. -/
theorem create_ne_refused {r : Refusal} : ¬ create payer id size l = .error (.refused r) l' := by
  have hunused : ∀ a : Account, ¬ checkUnused a = .error (.refused r) := by
    intro a h
    unfold checkUnused at h
    split at h <;> cases h
  have htransfer : ∀ (l l' : Ledger) (x : Amount),
      ¬ transfer payer id x l = .error (.refused r) l' := by
    intro l l' x h
    unfold transfer at h
    rw [get_bind] at h
    by_cases hshort : (l.account payer).lamports < x
    · simp only [hshort, if_true] at h
      cases h
    · simp only [hshort, if_false] at h
      split at h <;> cases h
  have hallocate : ∀ l l' : Ledger, ¬ allocate id size l = .error (.refused r) l' := by
    intro l l' h
    unfold allocate at h
    rw [get_bind] at h
    split at h <;> cases h
  intro h
  unfold create at h
  rw [get_bind] at h
  by_cases hempty : (l.account id).lamports = 0
  · simp only [hempty, if_true, lift_bind_eq_error, bind_eq_error (x := transfer _ _ _)] at h
    rcases h with ⟨h, -⟩ | ⟨-, -, h | ⟨-, l₁, -, h⟩⟩
    · exact hunused _ h
    · exact htransfer _ _ _ h
    · exact hallocate _ _ h
  · simp only [hempty, if_false] at h
    by_cases hself : payer = id
    · simp only [hself, if_true] at h
      cases h
    · simp only [hself, if_false, bind_eq_error (x := deposit _ _ _), get_bind,
        lift_bind_eq_error] at h
      rcases h with h | ⟨_, l₁, -, ⟨h, -⟩ | ⟨-, -, h⟩⟩
      · unfold deposit at h
        split at h
        · cases h
        · exact htransfer _ _ _ h
      · exact hunused _ h
      · exact hallocate _ _ h

end Ledger
end QuorumRelay
