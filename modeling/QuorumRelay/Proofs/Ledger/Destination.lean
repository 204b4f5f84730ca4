import QuorumRelay.Proofs.Inbound.Process
import QuorumRelay.Proofs.Ledger.Effect
import QuorumRelay.Proofs.Ledger.Marking

/-!
# What destination programs can do

Delivering a message hands control to a program that may do anything the host
allows.  The host's rules are what stands between that program and the records of
the bridge: what a program does not own it can neither write nor debit
(`Ledger.Outside`).  Nothing else is asked of destination programs.  They may
fail or not, spend what they were paid, create accounts, and even hand some to
the bridge program, which then finds them blank.

A delivery can go wrong in two places, and both count as having been begun: the
payment may be short, and the program may fail after it was paid.  What happened
is recorded in the machine as it happens, so `Forwarded` says it without looking
at the result: which digests were begun, what was paid, and what the vault got
back.

The receipt of a message is marked before its program is called, and the program
can read it.  What it finds there is that the message has been executed
(`Route.calls_of_executor`), whatever it calls from there.
-/

namespace QuorumRelay

/-- **What others may do to the ledger**: what the bridge program owns keeps its owner and data
and loses no lamports, and what is handed to it is blank. -/
structure Ledger.Outside (l l' : Ledger) : Prop where
  keeps : l.Extends l'
  lamports : ∀ id, l.Owns id → l.lamports id ≤ l'.lamports id

/-- Destination programs that keep to the host's rules, whatever they are called with. -/
def Destinations.Lawful (d : Destinations) : Prop :=
  ∀ call (l : Ledger), l.Outside (d.answer call l).1

/-- Destination programs that give nothing to the vault. -/
def Destinations.Quiet (d : Destinations) : Prop :=
  ∀ call (l : Ledger), (d.answer call l).1.lamports .vault = l.lamports .vault

/-- Destination programs that move no lamports. -/
def Destinations.Still (d : Destinations) : Prop :=
  ∀ call (l : Ledger) id, (d.answer call l).1.lamports id = l.lamports id

theorem Ledger.Outside.refl (l : Ledger) : l.Outside l where
  keeps := .refl l
  lamports _ _ := Nat.le_refl _

/-- Programs that leave the ledger alone keep to the rules. -/
theorem Destinations.lawful_ofFaults (fault : AccountId → Option UInt32) :
    (Destinations.ofFaults fault).Lawful :=
  fun _ l => .refl l

theorem Destinations.quiet_ofFaults (fault : AccountId → Option UInt32) :
    (Destinations.ofFaults fault).Quiet :=
  fun _ _ => rfl

/-- **What deliveries leave of the machine**: the digests that were begun, what was paid for
them, and what the vault was given.  Receipts of the digests `D` may have been marked. -/
structure Forwarded (env : Environment) (D : Digest → Prop) (w : Machine) (ds : List Digest)
    (ps : List Payment) (given : Nat) (w' : Machine) : Prop where
  attempts : w'.attempts = w.attempts ++ ds
  payments : w'.payments = w.payments ++ ps
  events : w'.events = w.events
  remaining : w'.remaining = w.remaining
  marks : w.ledger.Marks D w'.ledger
  money : w'.ledger.lamports .vault + paid ps = w.ledger.lamports .vault + given
  quiet : env.destinations.Quiet → given = 0
  inboxes : env.destinations.Still → ∀ id, id ≠ .vault →
    w'.ledger.lamports id = w.ledger.lamports id + paid (ps.filter fun p => p.inbox = id)

@[simp] theorem paid_append (ps ps' : List Payment) : paid (ps ++ ps') = paid ps + paid ps' := by
  unfold paid
  rw [List.map_append, List.sum_append]

@[simp] theorem paid_nil : paid [] = 0 := rfl

@[simp] theorem paid_singleton (p : Payment) : paid [p] = p.amount.toNat := by
  simp [paid]

namespace Forwarded

variable {env : Environment} {D : Digest → Prop} {w w' w'' : Machine} {ds ds' : List Digest}
  {ps ps' : List Payment} {given given' : Nat}

theorem refl (w : Machine) : Forwarded env D w [] [] 0 w where
  attempts := (List.append_nil _).symm
  payments := (List.append_nil _).symm
  events := rfl
  remaining := rfl
  marks := (Ledger.Extends.refl _).marks
  money := rfl
  quiet _ := rfl
  inboxes _ _ _ := rfl

theorem trans (h : Forwarded env D w ds ps given w')
    (h' : Forwarded env D w' ds' ps' given' w'') :
    Forwarded env D w (ds ++ ds') (ps ++ ps') (given + given') w'' where
  attempts := by rw [h'.attempts, h.attempts, List.append_assoc]
  payments := by rw [h'.payments, h.payments, List.append_assoc]
  events := h'.events.trans h.events
  remaining := h'.remaining.trans h.remaining
  marks := h.marks.trans h'.marks
  money := by
    have hfirst := h.money
    have hsecond := h'.money
    rw [paid_append]
    omega
  quiet hq := by rw [h.quiet hq, h'.quiet hq]
  inboxes hstill id hid := by
    rw [List.filter_append, paid_append, h'.inboxes hstill id hid, h.inboxes hstill id hid,
      Nat.add_assoc]

/-- Beginning a delivery pays nothing. -/
theorem begun (d : Digest) (w : Machine) :
    Forwarded env D w [d] [] 0 { w with attempts := w.attempts ++ [d] } where
  attempts := rfl
  payments := (List.append_nil _).symm
  events := rfl
  remaining := rfl
  marks := (Ledger.Extends.refl _).marks
  money := rfl
  quiet _ := rfl
  inboxes _ _ _ := rfl

/-- Marking a receipt begins nothing and pays nothing. -/
theorem marked {d digest : Digest} {receipt : Receipt} {u : Unit} {l : Ledger}
    (h : Ledger.mark (.receipt d) receipt digest w.ledger = .ok u l) (hd : D d) :
    Forwarded env D w [] [] 0 { w with ledger := l } := by
  obtain ⟨-, hl⟩ := Ledger.mark_eq_ok.1 h
  have hlamports : ∀ id, l.lamports id = w.ledger.lamports id := fun id => by
    rw [hl, Ledger.lamports_of_write]
  exact {
    attempts := (List.append_nil _).symm
    payments := (List.append_nil _).symm
    events := rfl
    remaining := rfl
    marks := Ledger.marks_of_mark h hd
    money := hlamports .vault
    quiet := fun _ => rfl
    inboxes := fun _ id _ => hlamports id }

end Forwarded

namespace Route

variable {env : Environment} {D : Digest → Prop} {r : Route} {d : Digest}
  {message : InboundMessage} {w w' : Machine}

/-- A prepared route leads to the program that the message names, and ends in its inbox. -/
theorem prepare_eq_ok (h : r.prepare message = .ok ()) :
    r.executable = true ∧ Address.ofKey r.program.key = message.destination ∧
      r.inbox = .inbox r.program.key := by
  unfold prepare at h
  simp only [except_bind_eq_ok, require_eq_ok] at h
  obtain ⟨_, hexecutable, _, hdestination, hinbox⟩ := h
  exact ⟨hexecutable, hdestination, hinbox⟩

/-- Beginning a delivery notes its digest. -/
theorem begin_eq_ok (d : Digest) (w : Machine) :
    begin d w = .ok ⟨⟩ { w with attempts := w.attempts ++ [d] } := rfl

/-- A delivery that could not be paid for does nothing. -/
theorem after_execute_of_error {f : Fault} {l : Ledger}
    (h : Ledger.withdraw .vault r.inbox message.value w.ledger = .error f l) :
    (r.execute env d message).after w = w := by
  obtain rfl := Ledger.withdraw_eq_error h
  unfold execute pay
  refine Action.after_bind_of_error (e := f) (bind_eq_error.2 (.inl ?_))
  exact Action.on_eq_error.2 ⟨_, h, rfl⟩

/-- What a program does to the ledger stays, also where the program fails. -/
theorem after_invoke (call : Call) : (invoke env call).after w = { w with
    ledger := (env.destinations.answer call w.ledger).1
    calls := w.calls ++ [call] } := by
  unfold invoke Action.after
  rw [get_bind]
  cases hanswer : env.destinations.answer call w.ledger with
  | mk ledger fault =>
    cases fault <;> rfl

/-- A delivery that was paid for leaves the payment and what the program did. -/
theorem after_execute_of_ok {u : Unit} {l : Ledger}
    (h : Ledger.withdraw .vault r.inbox message.value w.ledger = .ok u l) :
    (r.execute env d message).after w = { w with
      ledger := (env.destinations.answer (r.call (message.delivery d)) l).1
      calls := w.calls ++ [r.call (message.delivery d)]
      payments := w.payments ++ [⟨r.inbox, message.value⟩] } := by
  have hpay : r.pay message.value w = .ok ⟨⟩ { w with
      ledger := l
      payments := w.payments ++ [⟨r.inbox, message.value⟩] } :=
    bind_eq_ok.2 ⟨u, _, Action.on_eq_ok.2 ⟨l, h, rfl⟩, rfl⟩
  unfold execute
  rw [Action.after_bind_of_ok hpay, after_invoke]

/-- **A delivery pays and calls once**, or does neither. -/
theorem execute_cases (env : Environment) (r : Route) (d : Digest) (message : InboundMessage)
    (w : Machine) :
    let w' := (r.execute env d message).after w
    w'.calls = w.calls ∧ w'.payments = w.payments ∨ ∃ paid : Ledger,
      Ledger.withdraw .vault r.inbox message.value w.ledger = .ok () paid ∧
        w'.ledger = (env.destinations.answer (r.call (message.delivery d)) paid).1 ∧
        w'.calls = w.calls ++ [r.call (message.delivery d)] ∧
        w'.payments = w.payments ++ [⟨r.inbox, message.value⟩] := by
  cases hwithdraw : Ledger.withdraw .vault r.inbox message.value w.ledger with
  | error f l =>
    rw [after_execute_of_error hwithdraw]
    exact .inl ⟨rfl, rfl⟩
  | ok u paid =>
    rw [after_execute_of_ok hwithdraw]
    exact .inr ⟨paid, rfl, rfl, rfl, rfl⟩

/-- **One delivery**: its value is paid or nothing is, and what the program does stays. -/
theorem forwarded_of_execute (hd : env.destinations.Lawful) (hv : w.ledger.Owns .vault)
    (hprepared : r.prepare message = .ok ()) :
    ∃ ps given, Forwarded env D w [] ps given ((r.execute env d message).after w) ∧
      (ps = [] ∨ ps = [⟨r.inbox, message.value⟩]) := by
  cases hwithdraw : Ledger.withdraw .vault r.inbox message.value w.ledger with
  | error f l =>
    rw [after_execute_of_error hwithdraw]
    exact ⟨[], 0, .refl w, Or.inl rfl⟩
  | ok u l =>
    rw [after_execute_of_ok hwithdraw]
    have hpaid := (Ledger.withdraw_eq_ok hwithdraw).2
    have hne : AccountId.vault ≠ r.inbox := by
      rw [(prepare_eq_ok hprepared).2.2]
      nofun
    have hdebited := hpaid.debited hne
    have houtside := hd (r.call (message.delivery d)) l
    have hquiet := fun hq : env.destinations.Quiet => hq (r.call (message.delivery d)) l
    have hstill := fun hs : env.destinations.Still => hs (r.call (message.delivery d)) l
    have hgrows := houtside.lamports .vault (hpaid.same.extends.owns hv)
    generalize (env.destinations.answer (r.call (message.delivery d)) l).1 = l' at *
    refine ⟨[⟨r.inbox, message.value⟩], l'.lamports .vault - l.lamports .vault,
      ⟨(List.append_nil _).symm, rfl, rfl, rfl, (hpaid.same.extends.trans houtside.keeps).marks, ?_, ?_, ?_⟩, Or.inr rfl⟩
    · rw [paid_singleton]
      show l'.lamports .vault + message.value.toNat = _
      omega
    · intro hq
      rw [hquiet hq, Nat.sub_self]
    · intro hs id hid
      show l'.lamports id = _
      rw [hstill hs id]
      by_cases hinbox : r.inbox = id
      · subst hinbox
        simpa using hpaid.credited hne
      · simpa [hinbox] using hpaid.others id hid (Ne.symm hinbox)

/-- The executor of a route notes the digest, writes the mark, and delivers. -/
theorem after_executor_of_ok {place : AccountId} {receipt : Receipt} {u : Unit} {l : Ledger}
    (h : Ledger.mark place receipt d w.ledger = .ok u l) :
    ((r.executor env place receipt).execute d message).after w =
      (r.execute env d message).after
        { w with ledger := l, attempts := w.attempts ++ [d] } := by
  unfold executor
  rw [Action.after_bind_of_ok (begin_eq_ok d w)]
  exact Action.after_bind_of_ok (Action.on_eq_ok.2 ⟨l, h, rfl⟩)

/-- A delivery whose mark could not be written is only noted. -/
theorem after_executor_of_error {place : AccountId} {receipt : Receipt} {f : Fault} {l : Ledger}
    (h : Ledger.mark place receipt d w.ledger = .error f l) :
    ((r.executor env place receipt).execute d message).after w =
      { w with attempts := w.attempts ++ [d] } := by
  obtain rfl := Ledger.mark_eq_error h
  unfold executor
  rw [Action.after_bind_of_ok (begin_eq_ok d w)]
  exact Action.after_bind_of_error (Action.on_eq_error.2 ⟨w.ledger, h, rfl⟩)

/-- **One delivery of an executor**: its digest is begun, and a receipt is marked before anything is
paid. -/
theorem forwarded_of_executor {place : Digest} (receipt : Receipt) (hplace : D place)
    (hd : env.destinations.Lawful) (hv : w.ledger.Owns .vault)
    (hprepared : r.prepare message = .ok ()) :
    ∃ ps given, Forwarded env D w [d] ps given
        (((r.executor env (.receipt place) receipt).execute d message).after w) ∧
      (ps = [] ∨ ps = [⟨r.inbox, message.value⟩]) := by
  have hbegun : Forwarded env D w [d] [] 0 { w with attempts := w.attempts ++ [d] } := .begun d w
  cases hmark : Ledger.mark (.receipt place) receipt d w.ledger with
  | error f l =>
    rw [after_executor_of_error hmark]
    exact ⟨[], 0, hbegun, Or.inl rfl⟩
  | ok u l =>
    have hmarked := hbegun.trans (.marked hmark hplace)
    obtain ⟨ps, given, hforwarded, hps⟩ :=
      forwarded_of_execute (d := d) hd (hmarked.marks.owns hv) hprepared
    rw [after_executor_of_ok hmark]
    exact ⟨ps, 0 + 0 + given, hmarked.trans hforwarded, hps⟩

/-- **An executor pays and calls once**, over a receipt that is marked, or does neither. -/
theorem executor_cases (env : Environment) (r : Route) (place : AccountId) (receipt : Receipt)
    (d : Digest) (message : InboundMessage) (w : Machine) :
    let w' := ((r.executor env place receipt).execute d message).after w
    w'.calls = w.calls ∧ w'.payments = w.payments ∨ ∃ marked paid : Ledger,
      Ledger.mark place receipt d w.ledger = .ok () marked ∧
        Ledger.withdraw .vault r.inbox message.value marked = .ok () paid ∧
        w'.ledger = (env.destinations.answer (r.call (message.delivery d)) paid).1 ∧
        w'.calls = w.calls ++ [r.call (message.delivery d)] ∧
        w'.payments = w.payments ++ [⟨r.inbox, message.value⟩] := by
  cases hmark : Ledger.mark place receipt d w.ledger with
  | error f l =>
    rw [after_executor_of_error hmark]
    exact .inl ⟨rfl, rfl⟩
  | ok u l =>
    rw [after_executor_of_ok hmark]
    exact (execute_cases env r d message _).imp id fun ⟨paid, hpaid⟩ => ⟨l, paid, rfl, hpaid⟩

/-- **A program finds the message that it is called with already marked.**  Either the program is
not called, or the ledger it is called on has the receipt with its mark. -/
theorem calls_of_executor {place : Digest} {receipt : Receipt}
    (howns : w.ledger.Owns (.receipt place)) :
    let w' := ((r.executor env (.receipt place) receipt).execute d message).after w
    w'.calls = w.calls ∨ ∃ found : Ledger,
      found.books (.receipt place) = some (receipt.marked d) ∧
        w'.calls = w.calls ++ [r.call (message.delivery d)] ∧
        w'.ledger = (env.destinations.answer (r.call (message.delivery d)) found).1 := by
  intro w'
  rcases executor_cases env r (.receipt place) receipt d message w with
    ⟨hcalls, -⟩ | ⟨marked, found, hmark, hpaid, hledger, hcalls, -⟩
  · exact .inl hcalls
  · refine .inr ⟨found, ?_, hcalls, hledger⟩
    rw [(Ledger.withdraw_eq_ok hpaid).2.same.extends.books, (Ledger.mark_eq_ok.1 hmark).2,
      Ledger.books_write (p := .receipt place) howns trivial, Books.put_self]

/-- What a prepared route pays is for its message. -/
theorem isFor_of_prepare (h : r.prepare message = .ok ()) :
    Payment.IsFor ⟨r.inbox, message.value⟩ message :=
  ⟨rfl, r.program.key, (prepare_eq_ok h).2.2, (prepare_eq_ok h).2.1⟩

/-- A route as it is read off the ledger. -/
def Leads (l : Ledger) (r : Route) : Prop := r.executable = (l.account r.program).executable

end Route

/-- A payment went into the inbox of a program that can be called. -/
def Payment.Reaches (l : Ledger) (p : Payment) : Prop :=
  ∃ program, (l.account program).executable = true ∧ p.inbox = .inbox program.key

theorem Route.reaches_of_prepare {l : Ledger} {r : Route} {message : InboundMessage}
    (h : r.prepare message = .ok ()) (hleads : r.Leads l) :
    Payment.Reaches l ⟨r.inbox, message.value⟩ :=
  ⟨r.program, hleads ▸ (prepare_eq_ok h).1, (prepare_eq_ok h).2.2⟩

variable {env : Environment} {D : Digest → Prop} {l : Ledger}

/-- The delivery of a message that was executed. -/
theorem Inbound.Processed.forwarded {r : Route} {d : Digest} {place : AccountId}
    {receipt : Receipt} {s : Submission} {m : InboundMessage} {attestations : List Attestation}
    {st st' : State Machine} {o : Outcome}
    (h : Processed s (r.executor env place receipt) m attestations st o st')
    (hd : env.destinations.Lawful) (hid : place = .receipt d) (hplace : D d) (hleads : r.Leads l)
    (hv : st.world.ledger.Owns .vault) :
    ∃ ps given, Forwarded env D st.world [o.digest] ps given st'.world ∧ PaidFor ps [m] ∧
      ∀ p ∈ ps, p.Reaches l := by
  subst hid
  have hprepared : r.prepare m = .ok () := h.prepared
  obtain ⟨ps, given, hforwarded, hps⟩ :=
    Route.forwarded_of_executor (d := o.digest) receipt hplace hd hv hprepared
  rw [after_of_deliver h.delivered] at hforwarded
  refine ⟨ps, given, hforwarded, ?_⟩
  rcases hps with rfl | rfl
  · exact ⟨.nil, nofun⟩
  · exact ⟨.cons (Route.isFor_of_prepare hprepared) .nil,
      List.forall_mem_singleton.2 (Route.reaches_of_prepare hprepared hleads)⟩

/-- An executor that marks the receipt of one of the digests `D`, and delivers along a route. -/
def Route.Executes (env : Environment) (D : Digest → Prop) (l : Ledger) (e : Executor Machine) :
    Prop :=
  ∃ r d receipt, Leads l r ∧ D d ∧ e = r.executor env (.receipt d) receipt

/-- **Several deliveries**, one after the other: their digests are begun in this order, and what is
paid is paid for them. -/
theorem Inbound.Delivered.forwarded {ms : List (Member Machine)} {w w' : Machine}
    (h : Delivered ms w w') (hd : env.destinations.Lawful)
    (hroutes : ∀ m ∈ ms, Route.Executes env D l m.executor)
    (hprepared : ∀ m ∈ ms, m.executor.prepare m.message = .ok ()) (hv : w.ledger.Owns .vault) :
    ∃ ps given, Forwarded env D w (ms.map Member.digest) ps given w' ∧
      PaidFor ps (ms.map Member.message) ∧ ∀ p ∈ ps, p.Reaches l := by
  induction h with
  | nil w => exact ⟨[], 0, .refl w, .nil, nofun⟩
  | cons first rest ih =>
    rename_i m ms w w₁ w' failure
    rw [List.forall_mem_cons] at hroutes hprepared
    obtain ⟨⟨r, d, receipt, hleads, hplace, hr⟩, hroutes⟩ := hroutes
    obtain ⟨hprepare, hprepared⟩ := hprepared
    rw [hr] at first hprepare
    have hprepare : r.prepare m.message = .ok () := hprepare
    obtain ⟨ps, given, hfirst, hps⟩ :=
      Route.forwarded_of_executor (d := m.digest) receipt hplace hd hv hprepare
    rw [after_of_deliver first] at hfirst
    obtain ⟨ps', given', hrest, hpaidFor, hreaches⟩ :=
      ih hroutes hprepared (hfirst.marks.owns hv)
    refine ⟨ps ++ ps', given + given', hfirst.trans hrest, ?_⟩
    rcases hps with rfl | rfl
    · exact ⟨.cons_right hpaidFor, hreaches⟩
    · exact ⟨.cons (Route.isFor_of_prepare hprepare) hpaidFor,
        List.forall_mem_cons.2 ⟨Route.reaches_of_prepare hprepare hleads, hreaches⟩⟩

end QuorumRelay
