import QuorumRelay.Proofs.AppendOnly
import QuorumRelay.Proofs.Ledger.Delivering

/-!
# Records fit into their accounts

The size of an account is fixed when it is created, from the longest lists that its record
may have or, for a message, from the payload.  What is written into it later is as long as
the record has become.  A record that outgrew its account could not be written back, and
everything that has to write it would fail from then on.

`Ledger.records_fit_of_run` says that this does not happen.  The invariant is `Ledger.Roomy`,
and each instruction keeps it or fails for another reason than lack of space
(`Instruction.exec_stores`); what others do leaves the accounts of the program alone.
-/

namespace QuorumRelay

/-- Data that stands for no instruction is not reported as a record that cannot be written. -/
theorem Instruction.decode_ne_unwritable (data : List UInt8) :
    Instruction.decode data ≠ .error .unwritableRecord := by
  unfold Instruction.decode
  grind

namespace Ledger

variable {l : Ledger} {m : Move} {ms : List Move} {env : Environment} {data : List UInt8}
  {accounts : List Passed}

/-- Where the program owns nothing there is room for all it has. -/
theorem Fresh.roomy (h : l.Fresh) : l.Roomy := by
  intro p v hv
  cases hv.symm.trans (h.books_eq_none p)

/-- **No run fails for lack of space**, where there is room for every record. -/
theorem Roomy.fault_ne_unwritable {f : Failure} (hr : l.Roomy) (hk : l.Kept)
    (hd : env.destinations.Lawful) (h : (l.run env data accounts).result = .error f) :
    f.fault ≠ .access .unwritableRecord := by
  unfold run at h
  cases hdecode : Instruction.decode data with
  | error e =>
    rw [hdecode] at h
    obtain rfl := Except.error.inj h
    exact fun he => Instruction.decode_ne_unwritable data (hdecode.trans (by cases he; rfl))
  | ok i =>
    rw [hdecode] at h
    cases hexec : i.exec env { ledger := l, remaining := Passed.union accounts } with
    | ok value m =>
      simp only [hexec] at h
      cases h
    | error e m =>
      simp only [hexec] at h
      obtain rfl := Except.error.inj h
      exact (Instruction.exec_stores hk hr hd i).of_error hr hexec

/-- **Every move leaves room for every record.** -/
theorem Roomy.move (hr : l.Roomy) (hs : l.Sound) (hm : m.Allowed) : (l.move m).Roomy := by
  cases m with
  | outside change => exact hr.extend (hm l).keeps
  | run env data accounts =>
    show (l.run env data accounts).ledger.Roomy
    rcases l.run_cases env data accounts with ⟨f, notices, hrun, -⟩ | ⟨i, value, m, -, hexec, hrun⟩
    · rw [hrun]
      exact hr
    · rw [hrun]
      exact (Instruction.exec_stores (l := (l.start accounts).ledger) hs.kept hr hm.2 i).of_ok hr
        hexec

theorem Roomy.moves (hr : l.Roomy) (hs : l.Sound) (h : ∀ m ∈ ms, m.Allowed) :
    (l.moves ms).Roomy := by
  induction ms generalizing l with
  | nil => exact hr
  | cons m ms ih =>
    rw [List.forall_mem_cons] at h
    exact ih (hr.move hs h.1) (hs.move h.1) h.2

/-- A record has room in the account it is read from, wherever that is. -/
theorem Roomy.bounded_of_load (hr : l.Roomy) (hk : l.Kept) {q : Place} {id : AccountId}
    {v : q.Value} (h : q.record.load (l.account id) = .ok v) :
    q.Bounded v ∧ (l.account id).data.length = q.space v := by
  obtain ⟨p, rfl, hname⟩ := hk.exists_place_of_load h
  -- a place with records of the same kind reads them in the same way
  have hroom : ∀ w : p.Value, p.record.load (l.account p.id) = .ok w →
      p.Bounded w ∧ (l.account p.id).data.length = p.space w := fun w hw =>
    ⟨(hr.room p hw rfl).bounded, (hr.room p hw rfl).size⟩
  cases q with
  | bridge =>
    cases p with
    | bridge => exact hroom v h
    | _ => simp at hname
  | vault =>
    cases p with
    | vault => exact hroom v h
    | _ => simp at hname
  | roster =>
    cases p with
    | roster => exact hroom v h
    | _ => simp at hname
  | chain =>
    cases p with
    | chain => exact hroom v h
    | _ => simp at hname
  | outbound =>
    cases p with
    | outbound => exact hroom v h
    | _ => simp at hname
  | receipt =>
    cases p with
    | receipt => exact hroom v h
    | _ => simp at hname
  | cursor =>
    cases p with
    | cursor => exact hroom v h
    | _ => simp at hname
  | sponsor =>
    cases p with
    | sponsor => exact hroom v h
    | _ => simp at hname

/-- **Every record fits into its account, over any run.**  The account that a record is read from
has the size that accounts for such records are created with: that of the largest record of its
kind, and for a message the one for its payload.  The record takes no more than that, and there is
one that takes as much; of the messages it is those that a sponsor paid for.  So whatever has
happened, no instruction fails because a record cannot be written back. -/
theorem records_fit_of_run {l : Ledger} (hfresh : l.Fresh) {past : List Move}
    (hpast : ∀ move ∈ past, move.Allowed) :
    (∀ id (q : Place) (v : q.Value), q.record.load ((l.moves past).account id) = .ok v →
      (q.record.write v).length ≤ q.space v ∧
      ((l.moves past).account id).data.length = q.space v ∧
      ∃ w, q.Bounded w ∧ q.space w = q.space v ∧ (q.record.write w).length = q.space v) ∧
    (∀ id m, OutboundMessage.record.load ((l.moves past).account id) = .ok m →
      ((OutboundMessage.record.write m).length = OutboundMessage.sizeFor m.payload.length ↔
        ∃ owner, m.feePayer = .sponsor owner)) ∧
    ∀ env data accounts, env.destinations.Lawful →
      ∀ f, ((l.moves past).run env data accounts).result = .error f →
        f.fault ≠ .access .unwritableRecord := by
  have hs := hfresh.sound.moves hpast
  have hr := hfresh.roomy.moves hfresh.sound hpast
  refine ⟨fun id q v hload => ?_, fun _ m _ => m.length_write_eq_iff, ?_⟩
  · obtain ⟨hbounded, hsize⟩ := hr.bounded_of_load hs.kept hload
    exact ⟨hbounded.length_write_le, hsize, hbounded.exists_filling⟩
  · exact fun env data accounts hd f => hr.fault_ne_unwritable hs.kept hd

/-- The first message of a bridge was paid for by its sender, so it leaves some of its account
free. -/
theorem first_message_fits :
    ∃ m, OutboundMessage.record.load ((funded.moves Move.firstSend).account (.outbound 0)) =
        .ok m ∧
      m.feePayer = .sender ∧ m.payload = [] ∧
      ((funded.moves Move.firstSend).account (.outbound 0)).data.length =
        OutboundMessage.sizeFor 0 ∧
      (OutboundMessage.record.write m).length < OutboundMessage.sizeFor 0 ∧
      ∀ data accounts f,
        ((funded.moves Move.firstSend).run Move.unproven data accounts).result = .error f →
        f.fault ≠ .access .unwritableRecord := by
  have hrecord : ((funded.moves Move.firstSend).books (.outbound 0)).map
      (fun m => (m.feePayer, m.payload)) = some (.sender, []) := by
    decide +kernel
  obtain ⟨m, hm, hfields⟩ := Option.map_eq_some_iff.1 hrecord
  obtain ⟨hsender, hpayload⟩ := Prod.mk.inj hfields
  have hload := load_outbound hm
  obtain ⟨hfit, hfilled, hstored⟩ := records_fit_of_run fresh_funded Move.allowed_firstSend
  obtain ⟨hle, hsize, -⟩ := hfit _ (.outbound 0) m hload
  have hspace : (Place.outbound 0).space m = OutboundMessage.sizeFor 0 := by
    show OutboundMessage.sizeFor m.payload.length = _
    rw [hpayload, List.length_nil]
  rw [hspace] at hle hsize
  refine ⟨m, hload, hsender, hpayload, hsize, Nat.lt_of_le_of_ne hle fun heq => ?_,
    fun data accounts => hstored _ data accounts (Destinations.lawful_ofFaults fun _ => none)⟩
  obtain ⟨owner, hsponsor⟩ := (hfilled _ m hload).1 (by rw [hpayload, List.length_nil]; exact heq)
  rw [hsender] at hsponsor
  cases hsponsor

end Ledger
end QuorumRelay
