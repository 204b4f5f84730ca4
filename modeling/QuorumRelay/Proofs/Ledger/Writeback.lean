import QuorumRelay.Ledger.Receiving
import QuorumRelay.Proofs.Inner
import QuorumRelay.Proofs.Ledger.Room

/-!
# Writing back

Writing a record back fails in one way, for lack of space.  To know that it never does, one
walks along an instruction once more and keeps an account of sizes: what was found on the
ledger had room there, what was created has the size that was asked for, and nothing that
happens in between changes the size of an account.

## What is carried along

A step comes to a result with some property, or to a failure for another reason than lack of
space (`Meets`).  `Looks l x P` is said of steps that take and check: they leave the ledger `l` alone, what they
find satisfies `P`, and they fail for another reason than lack of space.  `Stores l₀ l x` is said
of the rest of an instruction on the ledger `l`: it leaves a roomy ledger, or fails for another
reason.  Its first ledger is the one that room was found on; by the time of writing it has
turned into the second, on which there is the same room.
-/

namespace QuorumRelay

/-! ## What the host does with lamports -/

namespace Ledger

variable {l l' : Ledger} {payer id : AccountId} {size : Nat}

instance (source target : AccountId) (amount : Amount) :
    InnerStep (transfer source target amount) := by
  unfold transfer
  infer_instance

instance (source target : AccountId) (amount : Amount) :
    InnerStep (deposit source target amount) := by
  unfold deposit
  infer_instance

instance (source target : AccountId) (amount : Amount) :
    InnerStep (withdraw source target amount) := by
  unfold withdraw
  infer_instance

instance (a : Account) : InnerCheck (checkUnused a) := by
  unfold checkUnused
  infer_instance

instance (id : AccountId) (size : Nat) : InnerStep (allocate id size) := by
  unfold allocate
  infer_instance

/-- An account that cannot be created is no account that cannot be written to. -/
theorem create_ne_unwritable : create payer id size l ≠ .error (.access .unwritableRecord) l' := by
  intro h
  unfold create at h
  rw [get_bind] at h
  split at h
  · exact (InnerStep.inner _ _ _ h).ne_access _ rfl
  · split at h
    · cases h
    · exact (InnerStep.inner _ _ _ h).ne_access _ rfl

instance (l : Ledger) (b : Bridge) (r : Roster) : InnerCheck (l.liquidity b r) := by
  unfold liquidity
  infer_instance

end Ledger

instance (env : Environment) (r : Route) (place : AccountId) (receipt : Receipt)
    (m : InboundMessage) : InnerCheck ((r.executor env place receipt).prepare m) := by
  show InnerCheck (r.prepare m)
  unfold Route.prepare
  infer_instance

/-- What cannot be read is not reported as what cannot be written. -/
theorem Record.load_ne_unwritable {α : Type} (r : Record α) (a : Account) :
    r.load a ≠ .error .unwritableRecord := by
  unfold load read readUnchecked
  grind

/-- Only what the program owns is read. -/
theorem Record.owner_of_load {α : Type} (r : Record α) {a : Account} {v : α}
    (h : r.load a = .ok v) : a.owner = .bridgeProgram := by
  unfold load at h
  grind

namespace Exec

variable {α β σ : Type}

/-- What a step comes to on a machine: a result that satisfies something, or a failure that is
not for lack of space. -/
def Meets (x : Exec α) (m : Machine) (Ψ : α → Machine → Prop) : Prop :=
  match x m with
  | .ok a m' => Ψ a m'
  | .error f _ => f.fault ≠ .access .unwritableRecord

namespace Meets

variable {x : Exec α} {k : α → Exec β} {m m' : Machine} {a : α} {f : Failure}
  {Ψ : α → Machine → Prop} {Φ : β → Machine → Prop}

theorem of_ok (h : Meets x m Ψ) (hx : x m = .ok a m') : Ψ a m' := by
  unfold Meets at h
  rwa [hx] at h

theorem of_error (h : Meets x m Ψ) (hx : x m = .error f m') :
    f.fault ≠ .access .unwritableRecord := by
  unfold Meets at h
  rwa [hx] at h

protected theorem bind (hx : Meets x m Ψ) (hk : ∀ a m', Ψ a m' → Meets (k a) m' Φ) :
    Meets (x >>= k) m Φ := by
  cases hxm : x m with
  | ok a m' =>
    have hrest := hk a m' (hx.of_ok hxm)
    unfold Meets at hrest ⊢
    rwa [show (x >>= k) m = k a m' by simp only [bind, EStateM.bind, hxm]]
  | error f m' =>
    have hfault := hx.of_error hxm
    unfold Meets
    rwa [show (x >>= k) m = .error f m' by simp only [bind, EStateM.bind, hxm]]

end Meets

/-! ## Looking -/

/-- A step that takes or checks: it leaves the ledger alone and finds something. -/
def Looks (l : Ledger) (x : Exec α) (P : α → Prop) : Prop :=
  ∀ m : Machine, m.ledger = l → Meets x m fun a m' => m'.ledger = l ∧ P a

namespace Looks

variable {l : Ledger} {x : Exec α} {k : α → Exec β} {P : α → Prop} {Q : β → Prop} {field : String}
  {p : Passed} {id : AccountId}

protected theorem bind (hx : Looks l x P) (hk : ∀ a, P a → Looks l (k a) Q) :
    Looks l (x >>= k) Q :=
  fun m hm => (hx m hm).bind fun a m' ha => hk a ha.2 m' ha.1

protected theorem pure {a : α} (h : P a) : Looks l (pure a) P := fun _ hm => ⟨hm, h⟩

protected theorem modify {g : Machine → Machine} (hg : ∀ m, (g m).ledger = m.ledger) :
    Looks l (modify g) fun _ => True :=
  fun m hm => ⟨(hg m).trans hm, trivial⟩

protected theorem get : Looks l get fun m => m.ledger = l := fun _ hm => ⟨hm, hm⟩

protected theorem note {n : Notice} : Looks l (note n) fun _ => True := .modify fun _ => rfl

protected theorem emit {e : Event} : Looks l (emit e) fun _ => True := .modify fun _ => rfl

protected theorem throw {f : Failure} (h : f.fault ≠ .access .unwritableRecord) :
    Looks l (throw f) P :=
  fun _ _ => h

protected theorem failAt {f : AccessFault} (h : f ≠ .unwritableRecord) :
    Looks l (failAt field f) P :=
  .throw fun heq => h (Fault.access.inj heq)

protected theorem fail {f : Fault} (h : f ≠ .access .unwritableRecord) : Looks l (fail f) P := by
  unfold Exec.fail
  split
  · exact .bind .note fun _ _ => .throw h
  · exact .throw h

protected theorem check {x : Except Fault α} [hx : InnerCheck x] :
    Looks l (check x) fun a => x = .ok a := by
  cases x with
  | ok a => exact .pure rfl
  | error f => exact .fail ((hx.inner f rfl).ne_access _)

protected theorem checkAt {x : Except AccessFault α} (h : x ≠ .error .unwritableRecord) :
    Looks l (checkAt field x) fun a => x = .ok a := by
  cases x with
  | ok a => exact .pure rfl
  | error f => exact .failAt fun hf => h (congrArg _ hf)

protected theorem perform_of_ne {step : Action σ α} {s : σ}
    (hstep : ∀ s', step s ≠ .error (.access .unwritableRecord) s') :
    Looks l (perform step s) fun r => step s = .ok r.1 r.2 := by
  unfold Exec.perform
  cases hs : step s with
  | ok a s' => exact .pure rfl
  | error f s' => exact .fail fun hf => hstep s' (hf ▸ hs)

protected theorem perform {step : Action σ α} {s : σ} [hstep : InnerStep step] :
    Looks l (perform step s) fun r => step s = .ok r.1 r.2 :=
  .perform_of_ne fun s' hs => (hstep.inner s _ s' hs).ne_access _ rfl

/-! ### Taking accounts -/

protected theorem account : Looks l (account id) fun a => a = l.account id := by
  unfold Exec.account
  exact .bind .get fun m hm => .pure (congrArg (·.account id) hm)

protected theorem next : Looks l next? fun _ => True := by
  unfold Exec.next?
  refine .bind .get fun m _ => ?_
  split
  · exact .pure trivial
  · exact .bind (.modify fun _ => rfl) fun _ _ => .pure trivial

protected theorem take : Looks l (take field) fun _ => True := by
  unfold Exec.take
  refine .bind .next fun p _ => ?_
  split
  · exact .pure trivial
  · exact .failAt nofun

protected theorem takeFresh : Looks l takeFresh fun _ => True := by
  unfold Exec.takeFresh
  refine .bind .next fun p _ => ?_
  split
  · exact .pure trivial
  · exact .fail nofun

/-- A record is read from the account it was found in. -/
protected theorem takeRecord {r : Record σ} :
    Looks l (takeRecord field r) fun h => r.load (l.account h.id) = .ok h.value := by
  unfold Exec.takeRecord
  refine .bind .take fun p _ => .bind .account fun a ha => ?_
  refine .bind (.checkAt (r.load_ne_unwritable a)) fun v hv => .pure ?_
  exact ha ▸ hv

/-- A record may be left out. -/
protected theorem takeOptional {r : Record σ} : Looks l (takeOptional field r) fun found =>
    ∀ h, found = some h → r.load (l.account h.id) = .ok h.value := by
  unfold Exec.takeOptional
  refine .bind .take fun p _ => ?_
  split
  · exact .pure nofun
  · refine .bind .account fun a ha => .bind (.checkAt (r.load_ne_unwritable a)) fun v hv => ?_
    refine .pure fun h hh => ?_
    cases hh
    exact ha ▸ hv

protected theorem takeSigner : Looks l (takeSigner field) fun _ => True := by
  unfold Exec.takeSigner
  refine .bind .take fun p _ => ?_
  split
  · exact .pure trivial
  · exact .bind (.failAt (P := fun _ => True) nofun) fun _ _ => .pure trivial

protected theorem takeSystemProgram : Looks l (takeSystemProgram field) fun _ => True := by
  unfold Exec.takeSystemProgram
  refine .bind .take fun p _ => ?_
  split
  · exact .pure trivial
  · exact .failAt nofun

/-! ### Checking accounts -/

protected theorem checkSeeds : Looks l (checkSeeds field p id) fun _ => p.id = id := by
  unfold Exec.checkSeeds
  split
  · exact .pure ‹_›
  · exact .failAt nofun

protected theorem checkAddress : Looks l (checkAddress field p id) fun _ => True := by
  unfold Exec.checkAddress
  split
  · exact .pure trivial
  · exact .failAt nofun

protected theorem checkWritable : Looks l (checkWritable field p) fun _ => True := by
  unfold Exec.checkWritable
  split
  · exact .pure trivial
  · exact .failAt nofun

protected theorem heldSeeds {h : Held σ} : Looks l (h.checkSeeds id) fun _ => h.id = id :=
  .checkSeeds

protected theorem heldWritable {h : Held σ} : Looks l h.checkWritable fun _ => True :=
  .checkWritable

end Looks

/-! ## Storing -/

/-- **The rest of an instruction stores what it writes**: where there is room, it leaves room,
and it does not fail for lack of space. -/
def Stores (l₀ l : Ledger) (x : Exec α) : Prop :=
  l₀.SameSizes l → l.Roomy → ∀ m : Machine, m.ledger = l → Meets x m fun _ m' => m'.ledger.Roomy

namespace Stores

variable {l₀ l : Ledger} {x : Exec α} {k : α → Exec β} {P : α → Prop} {field : String}
  {p payer : Passed} {id : AccountId} {size : Nat}

/-! ### Reading the end off -/

theorem of_ok {m m' : Machine} {a : α} (h : Stores m.ledger m.ledger x) (hr : m.ledger.Roomy)
    (hx : x m = .ok a m') : m'.ledger.Roomy :=
  (h (.refl _) hr m rfl).of_ok hx

theorem of_error {m m' : Machine} {f : Failure} (h : Stores m.ledger m.ledger x)
    (hr : m.ledger.Roomy) (hx : x m = .error f m') : f.fault ≠ .access .unwritableRecord :=
  (h (.refl _) hr m rfl).of_error hx

/-! ### Rows of steps -/

protected theorem pure {a : α} : Stores l₀ l (pure a) := by
  rintro - hr m rfl
  exact hr

/-- The last step of a row is followed by nothing. -/
theorem last (h : Stores l₀ l (x >>= pure)) : Stores l₀ l x := by
  rwa [bind_pure] at h

/-- A row within a row. -/
theorem assoc {y : σ → Exec α} {x : Exec σ} (h : Stores l₀ l (x >>= fun a => y a >>= k)) :
    Stores l₀ l ((x >>= y) >>= k) := by
  rwa [bind_assoc]

/-- A step that only looks is followed by what was found. -/
theorem look (hx : Looks l x P) (h : ∀ a, P a → Stores l₀ l (k a)) : Stores l₀ l (x >>= k) :=
  fun hsizes hr m hm => (hx m hm).bind fun a m' ha => h a ha.2 hsizes hr m' ha.1

/-- A step on a record that the instruction holds. -/
theorem perform {step : Action σ α} {s : σ} {k : α × σ → Exec β} [InnerStep step]
    (h : ∀ a s', step s = .ok a s' → Stores l₀ l (k (a, s'))) :
    Stores l₀ l (perform step s >>= k) :=
  look .perform fun r hr => h r.1 r.2 hr

/-- Room may be counted anew from where one is. -/
theorem rebase (h : Stores l l x) : Stores l₀ l x := fun _ hr => h (.refl l) hr

/-- What an instruction gives back is not stored. -/
theorem value (h : Stores l₀ l x) (g : α → β) : Stores l₀ l (x >>= fun a => pure (g a)) :=
  fun hsizes hr m hm => (h hsizes hr m hm).bind fun _ _ hend => hend

/-! ### Steps on the ledger -/

variable {l' : Ledger}

/-- The ledger is exchanged for one with at least the same room. -/
theorem modify {g : Machine → Machine} {k : PUnit → Exec β}
    (hg : ∀ m, m.ledger = l → (g m).ledger = l') (hsizes : l.SameSizes l')
    (hroomy : l.Roomy → l'.Roomy) (h : Stores l₀ l' (k ⟨⟩)) :
    Stores l₀ l (modify g >>= k) := by
  intro hsizes₀ hr m hm
  exact h (hsizes₀.trans hsizes) (hroomy hr) (g m) (hg m hm)

/-- A step that writes no record. -/
theorem onLedger {step : Action Ledger σ} {k : σ → Exec β}
    (hstep : ∀ l', step l ≠ .error (.access .unwritableRecord) l')
    (h : ∀ b l', step l = .ok b l' → l.Extends l' ∧ Stores l₀ l' (k b)) :
    Stores l₀ l (onLedger step >>= k) := by
  unfold Exec.onLedger
  refine assoc (look .get ?_)
  rintro m rfl
  refine assoc (look (.perform_of_ne hstep) ?_)
  rintro ⟨b, l'⟩ hb
  obtain ⟨hext, hrest⟩ := h b l' hb
  exact assoc (modify (fun _ _ => rfl) hext.sameSizes (fun hr => hr.extend hext) hrest)

theorem deposit {source target : AccountId} {amount : Amount} {k : Unit → Exec β}
    (h : ∀ l', Stores l₀ l' (k ())) :
    Stores l₀ l (Exec.onLedger (Ledger.deposit source target amount) >>= k) :=
  onLedger (fun _ hl => (InnerStep.inner _ _ _ hl).ne_access _ rfl) fun _ l' hl =>
    ⟨(Ledger.deposit_eq_ok hl).same.extends, h l'⟩

theorem withdraw {source target : AccountId} {amount : Amount} {k : Unit → Exec β}
    (h : ∀ l', Stores l₀ l' (k ())) :
    Stores l₀ l (Exec.onLedger (Ledger.withdraw source target amount) >>= k) :=
  onLedger (fun _ hl => (InnerStep.inner _ _ _ hl).ne_access _ rfl) fun _ l' hl =>
    ⟨(Ledger.withdraw_eq_ok hl).2.same.extends, h l'⟩

/-- A step whose state holds the machine. -/
theorem within {step : Action σ α} {enter : Machine → σ} {leave : σ → Machine}
    {k : α × σ → Exec β} (hstep : InnerStep step)
    (h : ∀ m a s, m.ledger = l → step (enter m) = .ok a s →
      l.SameSizes (leave s).ledger ∧ (l.Roomy → (leave s).ledger.Roomy) ∧
        Stores l₀ (leave s).ledger (k (a, s))) :
    Stores l₀ l (within step enter leave >>= k) := by
  unfold Exec.within
  refine assoc (look .get fun m hm => assoc (look .perform ?_))
  rintro ⟨a, s⟩ hs
  obtain ⟨hsizes, hroomy, hrest⟩ := h m a s hm hs
  exact assoc (modify (fun _ _ => rfl) hsizes hroomy hrest)

/-! ### Creating accounts -/

/-- An account that is created has the size that was asked for. -/
theorem create {r : Record σ} {k : Held σ → Exec β}
    (h : ∀ l', l.Created payer.id p.id size l' → Stores l' l' (k ⟨field, p, r.blank⟩)) :
    Stores l₀ l (create field r p payer size >>= k) := by
  unfold Exec.create
  refine assoc (onLedger (fun _ => Ledger.create_ne_unwritable) fun _ l' hl => ?_)
  have hcreated := Ledger.create_eq_ok hl
  exact ⟨hcreated.keeps, (h l' hcreated).rebase⟩

theorem init {r : Record σ} {k : Held σ → Exec β}
    (h : p.id = id → ∀ l', l.Created payer.id id size l' → Stores l' l' (k ⟨field, p, r.blank⟩)) :
    Stores l₀ l (init field r p id payer size >>= k) := by
  unfold Exec.init
  refine assoc (look .checkSeeds fun _ hid => assoc (create fun l' hl => ?_))
  exact assoc (look .checkWritable fun _ _ => h hid l' (hid ▸ hl))

/-- An account that was found or created has the size of its kind. -/
theorem initIfNeeded {r : Record σ} {k : Held σ → Exec β}
    (h : p.id = id → ∀ v l', l.Extends l' → l'.Owns id → (l'.account id).data.length = r.size →
      Stores l' l' (k ⟨field, p, v⟩)) :
    Stores l₀ l (initIfNeeded field r p id payer >>= k) := by
  unfold Exec.initIfNeeded
  refine assoc (look .checkSeeds fun _ hid => assoc (look .account ?_))
  rintro a rfl
  split
  · refine assoc (create fun l' hl => assoc (look .checkWritable fun _ _ => ?_))
    rw [hid] at hl
    exact h hid r.blank l' hl.keeps hl.owns (by rw [hl.data, List.length_replicate])
  · refine assoc (look (.checkAt (r.load_ne_unwritable _)) fun v hv => ?_)
    by_cases hsize : (l.account p.id).data.length = r.size
    · by_cases hrent : (l.account p.id).lamports < rentMinimum r.size
      · simp only [hsize, hrent, if_true]
        exact assoc (look (.failAt (P := fun _ => False) nofun) fun _ => nofun)
      · simp only [hsize, hrent, if_true, if_false]
        refine assoc (look (.pure rfl) ?_)
        rintro _ rfl
        refine assoc (look .checkWritable fun _ _ => rebase ?_)
        exact h hid v l (.refl l) (hid ▸ r.owner_of_load hv) (hid ▸ hsize)
    · simp only [hsize, if_false]
      exact assoc (look (.failAt (P := fun _ => False) nofun) fun _ => nofun)

/-! ### Writing back -/

/-- A record is written over the start of its place, where there is room for it. -/
theorem save (q : Place) {v : q.Value} {failure : Failure} {k : Unit → Exec β} (hid : id = q.id)
    (hroom : l₀.Room q v) (h : Stores l₀ (l.write q v) (k ())) :
    Stores l₀ l (save q.record id v failure >>= k) := by
  subst hid
  intro hsizes
  have hroom := hroom.mono hsizes
  revert hsizes
  show Stores l₀ l _
  unfold Exec.save Record.store?
  refine assoc (look .account ?_)
  rintro a rfl
  rw [if_pos hroom.length_le]
  exact modify (fun m hm => by rw [← hm]; rfl) hroom.sameSizes_write (fun hr => hr.write hroom) h

theorem heldSave (q : Place) {held : Held q.Value} {v : q.Value} {k : Unit → Exec β}
    (hid : held.id = q.id) (hroom : l₀.Room q v) (h : Stores l₀ (l.write q v) (k ())) :
    Stores l₀ l (held.save q.record v >>= k) :=
  save q hid hroom h

end Stores

-- From here on the rules above are all that is used of these two.
attribute [irreducible] Looks Stores

end Exec
end QuorumRelay
