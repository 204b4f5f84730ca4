import QuorumRelay.Proofs.Ledger.Destination
import QuorumRelay.Proofs.Ledger.Exec
import QuorumRelay.Proofs.Refusals
import QuorumRelay.Proofs.Stakes

/-!
# Committing an effect

An instruction ends by writing back the records it changed.  What stands between
it and its effect is then the same for all of them: the ledger it wrote on is an
extension of the one it started on, each write changes one entry of the books,
and the vault's account keeps its size.  `Ledger.Amends` carries these along the
writes, and `Commits` is what the walks through the instructions end in.  Where
messages are delivered in between, receipts are marked ahead; these are written
again, so the books come out as if nothing had been (`Books.AgreeBut`).
-/

namespace QuorumRelay

/-- A roster that fits still does after a change of one slot. -/
theorem Roster.Change.fits {r r' : Roster} (hc : Roster.Change r r'.slots)
    (h : Place.roster.Fits r) : Place.roster.Fits r' := by
  have hle := hc.length_le
  have hlt : r.slots.length < 2 ^ 32 := h
  show r'.slots.length < 2 ^ 32
  unfold maxRelayers at hle
  omega

namespace Ledger

variable {l l₁ l₂ : Ledger} {books : Books} {p : Place}

/-- A record that was read from the account at a place is held there. -/
theorem books_of_load (p : Place) {q : Passed} {v : p.Value}
    (hload : p.record.load (l.account q.id) = .ok v) (hid : q.id = p.id) : l.books p = some v := by
  rw [hid] at hload
  exact entry_of_load hload

/-- Where an account was created, no record was. -/
theorem absent_of_created (p : Place) {payer : AccountId} {size : Nat} {l' : Ledger}
    (h : l.Created payer p.id size l') : l.books p = none :=
  entry_eq_none_of_not_owns h.not_owns

/-- A record that was found, or is blank in a new account. -/
theorem holds_of_opened (p : Place) {payer : AccountId} {v : p.Value} {l' : Ledger}
    (h : Exec.Ends.Opened p.record payer p.id l v l') : l.books.Holds p v := by
  cases h with
  | found _ hload => exact Or.inl (entry_of_load hload)
  | created _ hcreated => exact Or.inr ⟨absent_of_created p hcreated, rfl⟩

section

variable {payer other : AccountId} (p : Place) {v : p.Value} {l' : Ledger}

theorem extends_of_opened (h : Exec.Ends.Opened p.record payer p.id l v l') : l.Extends l' := by
  cases h with
  | found => exact .refl l
  | created _ hcreated => exact hcreated.keeps

theorem owns_of_opened (h : Exec.Ends.Opened p.record payer p.id l v l') : l'.Owns p.id := by
  cases h with
  | found _ hload => exact owns_of_entry (entry_of_load hload)
  | created _ hcreated => exact hcreated.owns

theorem lamports_of_opened (h : Exec.Ends.Opened p.record payer p.id l v l') (hp : other ≠ payer)
    (hid : other ≠ p.id) : l'.lamports other = l.lamports other := by
  cases h with
  | found => rfl
  | created _ hcreated => exact hcreated.others other hp hid

/-- Opening a record makes no program. -/
theorem executable_of_opened (h : Exec.Ends.Opened p.record payer p.id l v l') :
    (l'.account other).executable = (l.account other).executable := by
  cases h with
  | found => rfl
  | created _ hcreated => exact hcreated.programs other

end

/-- **A ledger with these books that came of another** by extending it and writing records. -/
structure Amends (l : Ledger) (books : Books) (l' : Ledger) : Prop where
  kept : l.Kept → l'.Kept
  owns : ∀ id, l.Owns id → l'.Owns id
  books : l'.books = books
  vault : l.Owns .vault → (l'.account .vault).data.length = (l.account .vault).data.length

namespace Amends

theorem refl (l : Ledger) : l.Amends l.books l where
  kept hk := hk
  owns _ ho := ho
  books := rfl
  vault _ := rfl

theorem extend (h : l.Amends books l₁) (hext : l₁.Extends l₂) : l.Amends books l₂ where
  kept hk := hext.kept (h.kept hk)
  owns id ho := hext.owns (h.owns id ho)
  books := hext.books.trans h.books
  vault ho := by
    rw [(hext.stays .vault (h.owns .vault ho)).2]
    exact h.vault ho

/-- Deliveries leave what was amended, apart from the receipts that they mark. -/
theorem mark {D : Digest → Prop} (h : l.Amends books l₁) (hmarks : l₁.Marks D l₂) :
    l.Amends l₂.books l₂ where
  kept hk := hmarks.kept (h.kept hk)
  owns id ho := hmarks.owns (h.owns id ho)
  books := rfl
  vault ho := (hmarks.sizes .vault (h.owns .vault ho)).2.trans (h.vault ho)

theorem agreeBut {D : Digest → Prop} (h : l.Amends books l₁) (hmarks : l₁.Marks D l₂) :
    l₂.books.AgreeBut D books :=
  h.books ▸ hmarks.books

theorem write (h : l.Amends books l₁) (p : Place) {v : p.Value} (ho : l₁.Owns p.id)
    (hfits : p.Fits v) (hvault : p = .vault → ¬ l.Owns .vault) :
    l.Amends (books.put p v) (l₁.write p v) where
  kept hk := (h.kept hk).write p v
  owns id hid := owns_write.2 (h.owns id hid)
  books := by rw [books_write ho hfits, h.books]
  vault hvault' := by
    by_cases hp : p = .vault
    · exact absurd hvault' (hvault hp)
    · have hne : AccountId.vault ≠ p.id := fun hid => hp (Place.id_injective (Eq.symm hid))
      rw [account_write_of_ne hne]
      exact h.vault hvault'

/-- A record that was found is written back. -/
theorem change (h : l.Amends books l₁) (p : Place) {old v : p.Value} (hold : l.books p = some old)
    (hfits : p.Fits v) (hne : p ≠ .vault) :
    l.Amends (books.put p v) (l₁.write p v) :=
  h.write p (h.owns p.id (owns_of_entry hold)) hfits fun hp => absurd hp hne

end Amends
end Ledger

/-- Nobody signs for the vault: it has no key pair, and the program, which alone could sign in its
place, never does. -/
def HostSigned (A : List Passed) : Prop :=
  ∀ p ∈ A, p.signer = true → p.id.key ≠ AccountId.vault.key

theorem HostSigned.ne_vault {A : List Passed} (h : HostSigned A) {p : Passed} (hp : p ∈ A)
    (hsigned : p.signer = true) : AccountId.vault ≠ p.id :=
  fun heq => h p hp hsigned (heq ▸ rfl)

/-- The vault owns no slot of the roster. -/
def Books.VaultUnseated (books : Books) : Prop :=
  ∀ r, books .roster = some r → r.Owners (· ≠ AccountId.vault.key)

/-- **Where lamports went that left the vault**: to the user that was paid, or into the inboxes of
programs that can be called. -/
structure Pays (env : Environment) (A : List Passed) (l : Ledger) (t : Trace) (l' : Ledger) :
    Prop where
  payee : ∀ user, t.payee = some user → l.PaidOut user t.returned l'
  reaches : ∀ p ∈ t.payments, p.Reaches l
  inboxes : t.payments ≠ [] → env.destinations.Still → ∀ program, ¬ Signed A (.inbox program) →
    l'.lamports (.inbox program) =
      l.lamports (.inbox program) + paid (t.payments.filter fun p => p.inbox = .inbox program)

theorem Pays.of_union {env : Environment} {accounts : List Passed} {l l' : Ledger} {t : Trace}
    (h : Pays env (Passed.union accounts) l t l') : Pays env accounts l t l' where
  payee := h.payee
  reaches := h.reaches
  inboxes hpaid hstill program hunsigned :=
    h.inboxes hpaid hstill program fun hsigned => hunsigned hsigned.of_union

theorem Pays.returned {env : Environment} {A : List Passed} {l l' : Ledger} {t : Trace} {key : Key}
    {amount : Nat} (h : Pays env A l t l') (hreturns : t.Returns key amount) :
    l.Returned l' key amount := by
  obtain ⟨user, hkey, hpayee, rfl⟩ := hreturns
  exact ⟨user, hkey, h.payee user hpayee⟩

/-- Where nothing was paid out there is nothing to be said. -/
theorem Pays.of_unpaid {env : Environment} {A : List Passed} {l l' : Ledger} {t : Trace}
    (hpayee : t.payee = none) (hpayments : t.payments = []) : Pays env A l t l' where
  payee _ h := absurd (hpayee.symm.trans h) nofun
  reaches _ hp := absurd (hpayments ▸ hp) List.not_mem_nil
  inboxes h := absurd hpayments h

/-- **A committed instruction has an effect**, and the vault's lamports moved with it. -/
structure Commits (env : Environment) (A : List Passed) (i : Instruction) (m m' : Machine) :
    Prop where
  kept : m'.ledger.Kept
  effect : ∃ t, Effect env A (m.ledger.spendable .vault) m.ledger.books i m'.ledger.books t ∧
    m'.attempts = m.attempts ++ t.attempts ∧ m'.payments = m.payments ++ t.payments ∧
    m'.events = m.events ++ t.events ∧
    m'.ledger.lamports .vault + t.returned + paid t.payments =
      m.ledger.lamports .vault + t.received + t.given ∧
    (env.destinations.Quiet → t.given = 0) ∧ Pays env A m.ledger t m'.ledger
  vault : m.ledger.Owns .vault →
    (m'.ledger.account .vault).data.length = (m.ledger.account .vault).data.length
  funded : i.kind = .createBridge →
    (rentMinimum (m'.ledger.account .vault).data.length).toNat ≤ m'.ledger.lamports .vault

theorem Commits.of_amends {env : Environment} {A : List Passed} {i : Instruction}
    {m m' : Machine} {books : Books} {t : Trace} (hk : m.ledger.Kept)
    (hamends : m.ledger.Amends books m'.ledger)
    (heffect : Effect env A (m.ledger.spendable .vault) m.ledger.books i books t)
    (hmoney : m'.ledger.lamports .vault + t.returned + paid t.payments =
      m.ledger.lamports .vault + t.received + t.given)
    (hquiet : env.destinations.Quiet → t.given = 0)
    (hfunded : i.kind = .createBridge →
      (rentMinimum (m'.ledger.account .vault).data.length).toNat ≤ m'.ledger.lamports .vault)
    (hlog : m'.attempts = m.attempts ++ t.attempts ∧ m'.payments = m.payments ++ t.payments ∧
      m'.events = m.events ++ t.events)
    (hpays : Pays env A m.ledger t m'.ledger) : Commits env A i m m' where
  kept := hamends.kept hk
  effect := ⟨t, hamends.books.symm ▸ heffect, hlog.1, hlog.2.1, hlog.2.2, hmoney, hquiet, hpays⟩
  vault := hamends.vault
  funded := hfunded

section

variable {env : Environment} {A : List Passed} {i : Instruction} {m m' : Machine} {books : Books}
  {user : AccountId} {amount : Amount} {l l' : Ledger} {events : List Event}

/-- An instruction that wrote its records, and moved none of the vault's lamports, is committed. -/
theorem Commits.of_unpaid (hk : m.ledger.Kept) (hamends : m.ledger.Amends books m'.ledger)
    (heffect : Effect env A (m.ledger.spendable .vault) m.ledger.books i books { events })
    (hkind : i.kind ≠ .createBridge)
    (hafter : m'.ledger.lamports .vault = m.ledger.lamports .vault)
    (hlog : m'.attempts = m.attempts ∧ m'.payments = m.payments ∧
      m'.events = m.events ++ events) : Commits env A i m m' := by
  refine .of_amends hk hamends heffect ?_ (fun _ => rfl) (fun h => absurd h hkind) ?_
    (.of_unpaid rfl rfl)
  · simpa [paid] using hafter
  · simpa using hlog

/-- An instruction that was paid by a user, and wrote its records afterwards, is committed. -/
theorem Commits.of_deposited (hk : m.ledger.Kept) (hpaid : l.Paid user .vault amount.toNat l')
    (hne : AccountId.vault ≠ user) (hbefore : l.lamports .vault = m.ledger.lamports .vault)
    (hamends : m.ledger.Amends books m'.ledger)
    (heffect : Effect env A (m.ledger.spendable .vault) m.ledger.books i books
      { received := amount.toNat, events })
    (hkind : i.kind ≠ .createBridge) (hafter : m'.ledger.lamports .vault = l'.lamports .vault)
    (hlog : m'.attempts = m.attempts ∧ m'.payments = m.payments ∧
      m'.events = m.events ++ events) : Commits env A i m m' := by
  have hcredited := hpaid.credited (Ne.symm hne)
  rw [← hafter, hbefore] at hcredited
  refine .of_amends hk hamends heffect ?_ (fun _ => rfl) (fun h => absurd h hkind) ?_
    (.of_unpaid rfl rfl)
  · simpa [paid] using hcredited
  · simpa using hlog

/-- An instruction that paid a user, and wrote its records afterwards, is committed. -/
theorem Commits.of_withdrawn (hk : m.ledger.Kept)
    (hpaid : m.ledger.Paid .vault user amount.toNat l') (hne : AccountId.vault ≠ user)
    (hamends : m.ledger.Amends books m'.ledger)
    (heffect : Effect env A (m.ledger.spendable .vault) m.ledger.books i books
      { returned := amount.toNat, payee := some user, events })
    (hkind : i.kind ≠ .createBridge) (hafter : ∀ id, m'.ledger.lamports id = l'.lamports id)
    (hlog : m'.attempts = m.attempts ∧ m'.payments = m.payments ∧
      m'.events = m.events ++ events) : Commits env A i m m' := by
  have hpaidOut := hpaid.paidOut hne hafter
  refine .of_amends hk hamends heffect ?_ (fun _ => rfl) (fun h => absurd h hkind) ?_ ?_
  · simpa [paid] using hpaidOut.debited
  · simpa using hlog
  · refine ⟨fun payee h => ?_, fun _ hp => absurd hp List.not_mem_nil, fun h => absurd rfl h⟩
    cases h
    exact hpaidOut

/-- An instruction that delivered, and wrote its records afterwards, is committed: what was
delivered is what it did. -/
theorem Commits.of_forwarded {D : Digest → Prop} {w w' : Machine} {ds : List Digest}
    {ps : List Payment} {given : Nat} (hk : m.ledger.Kept)
    (hforwarded : Forwarded env D w ds ps given w')
    (hreaches : ∀ p ∈ ps, p.Reaches m.ledger)
    (hamends : m.ledger.Amends books m'.ledger)
    (heffect : Effect env A (m.ledger.spendable .vault) m.ledger.books i books
      { given, payments := ps, attempts := ds, events })
    (hkind : i.kind ≠ .createBridge)
    (hbefore : w.ledger.lamports .vault = m.ledger.lamports .vault ∧ w.attempts = m.attempts ∧
      w.payments = m.payments ∧ w.events = m.events)
    (hinboxes : ∀ program, ¬ Signed A (.inbox program) →
      w.ledger.lamports (.inbox program) = m.ledger.lamports (.inbox program))
    (hafter : (∀ id, m'.ledger.lamports id = w'.ledger.lamports id) ∧ m'.attempts = w'.attempts ∧
      m'.payments = w'.payments ∧ m'.events = w'.events ++ events) : Commits env A i m m' := by
  obtain ⟨hlamports, hattempts, hpayments, hevents⟩ := hbefore
  obtain ⟨hlamports', hattempts', hpayments', hevents'⟩ := hafter
  refine .of_amends hk hamends heffect ?_ hforwarded.quiet (fun h => absurd h hkind) ⟨?_, ?_, ?_⟩
    ⟨fun _ h => (nomatch h), hreaches, fun _ hstill program hsigned => ?_⟩
  · have hmoney := hforwarded.money
    rw [hlamports, ← hlamports' .vault] at hmoney
    simpa using hmoney
  · rw [hattempts', hforwarded.attempts, hattempts]
  · rw [hpayments', hforwarded.payments, hpayments]
  · rw [hevents', hforwarded.events, hevents]
  · rw [hlamports' (.inbox program), hforwarded.inboxes hstill (.inbox program) nofun,
      hinboxes program hsigned]

end

/-- A refusal for want of liquidity comes only of an effect that would have returned more than
the vault could spend. -/
def Illiquid (env : Environment) (A : List Passed) (i : Instruction) (m : Machine)
    (r : Refusal) : Prop :=
  r = .insufficientLiquidity → ∃ books t,
    Effect env A (m.ledger.spendable .vault) m.ledger.books i books t ∧
      (m.ledger.spendable .vault).toNat < t.returned

/-- A step that never falls short of liquidity leaves nothing to be shown. -/
theorem Illiquid.of_spares {env : Environment} {A : List Passed} {i : Instruction} {m : Machine}
    {σ α : Type} {step : Action σ α} {s s' : σ} {r : Refusal}
    (hspares : step.Spares .insufficientLiquidity) (h : step s = .error (.refused r) s') :
    Illiquid env A i m r := by
  rintro rfl
  exact absurd h (hspares s s')

/-- A payment that falls short is one of more than the vault could spend. -/
theorem Illiquid.of_withdraw {env : Environment} {A : List Passed} {i : Instruction} {m : Machine}
    {payee : AccountId} {amount : Amount} {l : Ledger} {r : Refusal} {books : Books} {t : Trace}
    (heffect : Effect env A (m.ledger.spendable .vault) m.ledger.books i books t)
    (hreturned : amount.toNat ≤ t.returned)
    (h : Ledger.withdraw .vault payee amount m.ledger = .error (.refused r) l) :
    Illiquid env A i m r := by
  rintro rfl
  exact ⟨books, t, heffect, Nat.lt_of_lt_of_le
    (UInt64.lt_iff_toNat_lt.1 (Ledger.withdraw_eq_refused h)) hreturned⟩

end QuorumRelay
