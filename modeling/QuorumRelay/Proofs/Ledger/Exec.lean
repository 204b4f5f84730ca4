import Mathlib.Tactic.Simps.Basic
import QuorumRelay.Ledger.Receiving
import QuorumRelay.Proofs.Ledger.Money
import QuorumRelay.Proofs.Step

/-!
# Walking through an instruction

An instruction is a long row of small steps, most of which only look.  To know
what it did one walks along the row once, from the front, and keeps what each
step found.  `Exec.Ends` is the statement that is carried along, and there is one
rule for each kind of step; a proof about an instruction reads like the
instruction, with one line for each of its lines.

## What is carried along

`Ends A x m Q E` says of the rest `x` of an instruction, started on the machine
`m`: if it gives a result, `Q` holds of the result and the machine it leaves, and
if it is refused, `E` holds of the reason.  Faults of the host and of account
checks are not followed; they need no argument, since the ledger is put back.

`A` are the accounts the instruction was handed.  The walk takes them one by one,
and it is part of `Ends` that no other is ever taken, so that a signer met on the
way is a signer of the instruction.
-/

namespace QuorumRelay

namespace Machine

/-- The machine with other accounts left to take. -/
@[simps] def handing (m : Machine) (remaining : List Passed) : Machine := { m with remaining }

/-- The machine on another ledger. -/
@[simps] def holding (m : Machine) (ledger : Ledger) : Machine := { m with ledger }

/-- The machine with a record written. -/
@[simps] def writing (m : Machine) (p : Place) (v : p.Value) : Machine :=
  { m with ledger := m.ledger.write p v }

/-- The machine with one more log line. -/
@[simps] def noting (m : Machine) (n : Notice) : Machine := { m with notices := m.notices ++ [n] }

/-- The machine with other log lines. -/
@[simps] def logging (m : Machine) (notices : List Notice) : Machine := { m with notices }

/-- The machine with one more event. -/
@[simps] def announcing (m : Machine) (e : Event) : Machine := { m with events := m.events ++ [e] }

end Machine

namespace Exec

variable {α β σ : Type}

/-- What the rest of an instruction ends in. -/
def Ends (A : List Passed) (x : Exec α) (m : Machine) (Q : α → Machine → Prop)
    (E : Refusal → Prop) : Prop :=
  (∀ p ∈ m.remaining, p ∈ A) →
    match x m with
    | .ok a m' => (∀ p ∈ m'.remaining, p ∈ A) ∧ Q a m'
    | .error f _ => ∀ r, f.fault = .refused r → E r

namespace Ends

variable {A : List Passed} {x : Exec α} {k : α → Exec β} {m m' : Machine}
  {Q : α → Machine → Prop} {R : β → Machine → Prop} {E : Refusal → Prop} {field : String}
  {p : Passed} {id : AccountId}

/-! ## Reading the end off -/

theorem of_ok {a : α} (h : Ends A x m Q E) (hA : ∀ p ∈ m.remaining, p ∈ A)
    (hx : x m = .ok a m') : Q a m' := by
  have hend := h hA
  rw [hx] at hend
  exact hend.2

theorem of_refused {f : Failure} {r : Refusal} (h : Ends A x m Q E)
    (hA : ∀ p ∈ m.remaining, p ∈ A) (hx : x m = .error f m') (hf : f.fault = .refused r) :
    E r := by
  have hend := h hA
  rw [hx] at hend
  exact hend r hf

/-- A row that gives a result in an ending gives it by being run. -/
theorem known (h : Ends A x m Q E) : Ends A x m (fun a m' => x m = .ok a m' ∧ Q a m') E := by
  intro hA
  have hend := h hA
  cases hx : x m with
  | ok a m₁ =>
    rw [hx] at hend
    exact ⟨hend.1, rfl, hend.2⟩
  | error f m₁ =>
    rw [hx] at hend
    exact hend

/-! ## Rows of steps -/

/-- A row ends as its first step and what follows it. -/
theorem bind (h : Ends A x m (fun a m₁ => Ends A (k a) m₁ R E) E) :
    Ends A (x >>= k) m R E := by
  intro hA
  have hx := h hA
  show match EStateM.bind x k m with
    | .ok a m' => _
    | .error f _ => _
  unfold EStateM.bind
  cases hxm : x m with
  | ok a m₁ =>
    rw [hxm] at hx
    exact hx.2 hx.1
  | error f m₁ =>
    rw [hxm] at hx
    exact hx

/-- The accounts that were handed over are known all along. -/
theorem of_handed (h : (∀ p ∈ m.remaining, p ∈ A) → Ends A x m Q E) : Ends A x m Q E :=
  fun hA => h hA hA

theorem pure {a : α} (h : Q a m) : Ends A (Pure.pure a) m Q E := fun hA => ⟨hA, h⟩

/-- The last step of a row is followed by nothing. -/
theorem last (h : Ends A (x >>= Pure.pure) m Q E) : Ends A x m Q E := by
  rwa [bind_pure] at h

/-- A row within a row. -/
theorem assoc {y : σ → Exec α} {x : Exec σ} (h : Ends A (x >>= fun a => y a >>= k) m R E) :
    Ends A ((x >>= y) >>= k) m R E := by
  rwa [bind_assoc]

theorem mono {Q' : α → Machine → Prop} {E' : Refusal → Prop} (h : Ends A x m Q E)
    (hQ : ∀ a m', Q a m' → Q' a m') (hE : ∀ r, E r → E' r) : Ends A x m Q' E' := by
  intro hA
  have hend := h hA
  cases hx : x m with
  | ok a m₁ =>
    rw [hx] at hend
    exact ⟨hend.1, hQ a m₁ hend.2⟩
  | error f m₁ =>
    rw [hx] at hend
    exact fun r hr => hE r (hend r hr)

/-- A failure ends a row, for the reason that it has. -/
theorem fail {f : Fault} {k : β → Exec α} (h : ∀ r, f = .refused r → E r) :
    Ends A (Exec.fail f >>= k) m Q E := by
  intro _
  cases f <;> exact fun r hr => h r hr

/-- A failure that is no refusal ends a row without more being said. -/
theorem failAt {f : AccessFault} {k : β → Exec α} : Ends A (Exec.failAt field f >>= k) m Q E := by
  intro _ r hr
  cases hr

theorem get {k : Machine → Exec α} (h : Ends A (k m) m Q E) :
    Ends A (MonadState.get >>= k) m Q E := h

theorem modify {g : Machine → Machine} {k : PUnit → Exec α}
    (hg : ∀ p ∈ (g m).remaining, p ∈ m.remaining) (h : Ends A (k ⟨⟩) (g m) Q E) :
    Ends A (modify g >>= k) m Q E := fun hA => h fun p hp => hA p (hg p hp)

theorem ret {a : β} {k : β → Exec α} (h : Ends A (k a) m Q E) :
    Ends A (Pure.pure a >>= k) m Q E := h

theorem account {k : Account → Exec α} (h : Ends A (k (m.ledger.account id)) m Q E) :
    Ends A (Exec.account id >>= k) m Q E := h

theorem note {n : Notice} {k : Unit → Exec α}
    (h : Ends A (k ()) (m.noting n) Q E) :
    Ends A (Exec.note n >>= k) m Q E := h

theorem emit {e : Event} {k : Unit → Exec α}
    (h : Ends A (k ()) (m.announcing e) Q E) :
    Ends A (Exec.emit e >>= k) m Q E := h

/-! ## Checks and steps on records -/

/-- A check: what it found, and why it may refuse. -/
theorem check {x : Except Fault σ} {k : σ → Exec α} (h : ∀ a, x = .ok a → Ends A (k a) m Q E)
    (hE : ∀ r, x = .error (.refused r) → E r) : Ends A (Exec.check x >>= k) m Q E := by
  cases x with
  | ok a => exact h a rfl
  | error f => exact fail fun r hr => hE r (congrArg _ hr)

/-- A step on a record that the instruction holds. -/
theorem perform {step : Action σ β} {s : σ} {k : β × σ → Exec α}
    (h : ∀ b s', step s = .ok b s' → Ends A (k (b, s')) m Q E)
    (hE : ∀ r s', step s = .error (.refused r) s' → E r) :
    Ends A (Exec.perform step s >>= k) m Q E := by
  unfold Exec.perform
  cases hstep : step s with
  | ok b s' => exact h b s' hstep
  | error f s' => exact fail fun r hr => hE r s' (hr ▸ hstep)

/-- A step on the ledger. -/
theorem onLedger {step : Action Ledger β} {k : β → Exec α}
    (h : ∀ b l, step m.ledger = .ok b l → Ends A (k b) (m.holding l) Q E)
    (hE : ∀ r l, step m.ledger = .error (.refused r) l → E r) :
    Ends A (Exec.onLedger step >>= k) m Q E := by
  unfold Exec.onLedger
  exact assoc (get (assoc (perform h hE)))

/-- A step whose state holds the machine. -/
theorem within {step : Action σ β} {enter : Machine → σ} {leave : σ → Machine}
    {k : β × σ → Exec α}
    (h : ∀ b s, step (enter m) = .ok b s → (leave s).remaining = m.remaining ∧
      Ends A (k (b, s)) (leave s) Q E)
    (hE : ∀ r s, step (enter m) = .error (.refused r) s → E r) :
    Ends A (Exec.within step enter leave >>= k) m Q E := by
  unfold Exec.within
  refine assoc (get (assoc (perform (fun b s hstep => ?_) hE)))
  obtain ⟨hremaining, hrest⟩ := h b s hstep
  intro hA
  exact hrest (hremaining ▸ hA)

/-! ## Taking accounts -/

/-- The next account is the first of those that are left, and one that was handed over. -/
theorem next {k : Option Passed → Exec α} (hnone : Ends A (k none) m Q E)
    (hsome : ∀ p rest, m.remaining = p :: rest → p ∈ A →
      Ends A (k (some p)) (m.handing rest) Q E) :
    Ends A (Exec.next? >>= k) m Q E := by
  refine of_handed fun hA => ?_
  unfold Exec.next?
  refine assoc (get ?_)
  cases hrem : m.remaining with
  | nil => exact hnone
  | cons p rest =>
    refine assoc (modify (fun q hq => hrem ▸ List.mem_cons_of_mem p hq) ?_)
    exact hsome p rest hrem (hA p (hrem ▸ List.mem_cons_self))

/-- The account that is taken, where its place among the accounts matters. -/
theorem takeFirst {k : Passed → Exec α}
    (h : ∀ p rest, m.remaining = p :: rest → p ∈ A → Ends A (k p) (m.handing rest) Q E) :
    Ends A (Exec.take field >>= k) m Q E := by
  unfold Exec.take
  exact assoc (next failAt h)

theorem take {k : Passed → Exec α}
    (h : ∀ p rest, p ∈ A → Ends A (k p) (m.handing rest) Q E) :
    Ends A (Exec.take field >>= k) m Q E :=
  takeFirst fun p rest _ => h p rest

theorem takeFresh {k : Passed → Exec α}
    (h : ∀ p rest, p ∈ A → Ends A (k p) (m.handing rest) Q E) :
    Ends A (Exec.takeFresh >>= k) m Q E := by
  unfold Exec.takeFresh
  refine assoc (next ?_ fun p rest _ hp => ?_)
  · intro _ r hr
    cases hr
  · exact h p rest hp

theorem checkAt {x : Except AccessFault σ} {k : σ → Exec α}
    (h : ∀ a, x = .ok a → Ends A (k a) m Q E) : Ends A (Exec.checkAt field x >>= k) m Q E := by
  cases x with
  | ok a => exact h a rfl
  | error f => exact failAt

/-- The record that is taken, where its place among the accounts matters. -/
theorem takeFirstRecord {r : Record σ} {k : Held σ → Exec α}
    (h : ∀ p v rest, m.remaining = p :: rest → r.load (m.ledger.account p.id) = .ok v →
      Ends A (k ⟨field, p, v⟩) (m.handing rest) Q E) :
    Ends A (Exec.takeRecord field r >>= k) m Q E := by
  unfold Exec.takeRecord
  refine assoc (takeFirst fun p rest hrem _ => assoc (account (assoc (checkAt fun v hv => ?_))))
  exact h p v rest hrem hv

/-- A record is read from the account it was found in. -/
theorem takeRecord {r : Record σ} {k : Held σ → Exec α}
    (h : ∀ p v rest, p ∈ A → r.load (m.ledger.account p.id) = .ok v →
      Ends A (k ⟨field, p, v⟩) (m.handing rest) Q E) :
    Ends A (Exec.takeRecord field r >>= k) m Q E := by
  refine of_handed fun hA => takeFirstRecord fun p v rest hrem hv => ?_
  exact h p v rest (hA p (hrem ▸ List.mem_cons_self)) hv

/-- A record may be left out. -/
theorem takeOptional {r : Record σ} {k : Option (Held σ) → Exec α}
    (h : ∀ found rest, (∀ c, found = some c → r.load (m.ledger.account c.id) = .ok c.value) →
      Ends A (k found) (m.handing rest) Q E) :
    Ends A (Exec.takeOptional field r >>= k) m Q E := by
  unfold Exec.takeOptional
  refine assoc (take fun p rest _ => ?_)
  by_cases hown : p.id = .bridgeProgram
  · rw [if_pos hown]
    exact h none rest nofun
  · rw [if_neg hown]
    refine assoc (account (assoc (checkAt fun v hv => ?_)))
    refine h (some ⟨field, p, v⟩) rest fun c hc => ?_
    cases hc
    exact hv

/-- An account that signed, where its place among the accounts matters. -/
theorem takeFirstSigner {k : Passed → Exec α}
    (h : ∀ p rest, m.remaining = p :: rest → p ∈ A → p.signer = true →
      Ends A (k p) (m.handing rest) Q E) :
    Ends A (Exec.takeSigner field >>= k) m Q E := by
  unfold Exec.takeSigner
  refine assoc (takeFirst fun p rest hrem hp => ?_)
  by_cases hs : p.signer = true
  · simp only [hs, if_true]
    exact h p rest hrem hp hs
  · simp only [hs]
    exact assoc failAt

/-- An account that signed. -/
theorem takeSigner {k : Passed → Exec α}
    (h : ∀ p rest, p ∈ A → p.signer = true → Ends A (k p) (m.handing rest) Q E) :
    Ends A (Exec.takeSigner field >>= k) m Q E :=
  takeFirstSigner fun p rest _ => h p rest

theorem takeSystemProgram {k : Unit → Exec α}
    (h : ∀ rest, Ends A (k ()) (m.handing rest) Q E) :
    Ends A (Exec.takeSystemProgram field >>= k) m Q E := by
  unfold Exec.takeSystemProgram
  refine assoc (take fun p rest _ => ?_)
  by_cases hs : p.id = .systemProgram
  · simp only [hs, if_true]
    exact h rest
  · simp only [hs, if_false]
    exact failAt

/-! ## Checking accounts -/

theorem checkSeeds {k : Unit → Exec α} (h : p.id = id → Ends A (k ()) m Q E) :
    Ends A (Exec.checkSeeds field p id >>= k) m Q E := by
  unfold Exec.checkSeeds
  by_cases hid : p.id = id
  · simp only [hid, if_true]
    exact h hid
  · simp only [hid, if_false]
    exact failAt

theorem checkAddress {k : Unit → Exec α} (h : p.id = id → Ends A (k ()) m Q E) :
    Ends A (Exec.checkAddress field p id >>= k) m Q E := by
  unfold Exec.checkAddress
  by_cases hid : p.id = id
  · simp only [hid, if_true]
    exact h hid
  · simp only [hid, if_false]
    exact failAt

theorem checkWritable {k : Unit → Exec α} (h : Ends A (k ()) m Q E) :
    Ends A (Exec.checkWritable field p >>= k) m Q E := by
  unfold Exec.checkWritable
  by_cases hw : p.writable = true
  · simp only [hw, if_true]
    exact h
  · simp only [hw]
    exact failAt

theorem heldSeeds {held : Held σ} {k : Unit → Exec α} (h : held.id = id → Ends A (k ()) m Q E) :
    Ends A (held.checkSeeds id >>= k) m Q E := checkSeeds h

theorem heldWritable {held : Held σ} {k : Unit → Exec α} (h : Ends A (k ()) m Q E) :
    Ends A (held.checkWritable >>= k) m Q E := checkWritable h

/-! ## Creating accounts -/

variable {payer : Passed} {size : Nat}

/-- An account that was created for a record, which is blank. -/
theorem create {r : Record σ} {k : Held σ → Exec α}
    (h : ∀ l, m.ledger.Created payer.id p.id size l →
      Ends A (k ⟨field, p, r.blank⟩) (m.holding l) Q E) :
    Ends A (Exec.create field r p payer size >>= k) m Q E := by
  unfold Exec.create
  refine assoc (onLedger (fun _ l hl => ?_) fun r l hl => ?_)
  · exact h l (Ledger.create_eq_ok hl)
  · exact absurd hl Ledger.create_ne_refused

/-- An account that is created at the place that its seeds describe. -/
theorem init {r : Record σ} {k : Held σ → Exec α}
    (h : p.id = id → ∀ l, m.ledger.Created payer.id id size l →
      Ends A (k ⟨field, p, r.blank⟩) (m.holding l) Q E) :
    Ends A (Exec.init field r p id payer size >>= k) m Q E := by
  unfold Exec.init
  refine assoc (checkSeeds fun hid => assoc (create fun l hl => assoc (checkWritable ?_)))
  exact h hid l (hid ▸ hl)

/-- A record that was found at its place, or is blank in an account that was created for it. -/
inductive Opened (r : Record σ) (payer id : AccountId) (l : Ledger) : σ → Ledger → Prop
  | found (v : σ) (loaded : r.load (l.account id) = .ok v) : Opened r payer id l v l
  | created (l' : Ledger) (created : l.Created payer id r.size l') :
      Opened r payer id l r.blank l'

theorem initIfNeeded {r : Record σ} {k : Held σ → Exec α}
    (h : p.id = id → ∀ v l, Opened r payer.id id m.ledger v l →
      Ends A (k ⟨field, p, v⟩) (m.holding l) Q E) :
    Ends A (Exec.initIfNeeded field r p id payer >>= k) m Q E := by
  unfold Exec.initIfNeeded
  refine assoc (checkSeeds fun hid => assoc (account ?_))
  by_cases hfree : (m.ledger.account p.id).owner = .systemProgram
  · rw [if_pos hfree]
    refine assoc (create fun l hl => assoc (checkWritable ?_))
    exact h hid r.blank l (.created l (hid ▸ hl))
  · rw [if_neg hfree]
    refine assoc (checkAt fun v hv => ?_)
    have hfound := h hid v m.ledger (.found v (hid ▸ hv))
    by_cases hsize : (m.ledger.account p.id).data.length = r.size
    · by_cases hrent : (m.ledger.account p.id).lamports < rentMinimum r.size
      · simp only [hsize, hrent, if_true]
        exact assoc failAt
      · simp only [hsize, hrent, if_true, if_false]
        exact assoc (ret (assoc (checkWritable hfound)))
    · simp only [hsize, if_false]
      exact assoc failAt

/-! ## Writing back -/

/-- A record is written over the start of its place. -/
theorem save (q : Place) {v : q.Value} {failure : Failure} {k : Unit → Exec α} (hid : id = q.id)
    (h : Ends A (k ()) (m.writing q v) Q E)
    (hfailure : ∀ r, failure.fault ≠ .refused r) :
    Ends A (Exec.save q.record id v failure >>= k) m Q E := by
  subst hid
  unfold Exec.save Record.store?
  refine assoc (account ?_)
  by_cases hfits : (q.record.write v).length ≤ (m.ledger.account q.id).data.length
  · simp only [hfits, if_true]
    exact modify (fun _ hp => hp) h
  · simp only [hfits, if_false]
    exact fun _ r hr => absurd hr (hfailure r)

theorem heldSave (q : Place) {held : Held q.Value} {v : q.Value} {k : Unit → Exec α}
    (hid : held.id = q.id) (h : Ends A (k ()) (m.writing q v) Q E) :
    Ends A (held.save q.record v >>= k) m Q E :=
  save q hid h fun _ => nofun

end Ends

-- From here on the rules above are all that is used of an ending.
attribute [irreducible] Ends

end Exec
end QuorumRelay
