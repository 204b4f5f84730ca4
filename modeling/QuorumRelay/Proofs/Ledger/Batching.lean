import QuorumRelay.Proofs.Ledger.Allotment
import QuorumRelay.Proofs.Ledger.Receipts
import QuorumRelay.Proofs.Ledger.Receiving

/-!
# Batches that are received, committed

A batch differs from the other instructions in that its accounts come in a list
of any length, and the receipts among them are not named by seeds.  A receipt is
accepted for what is in it: it has to belong to the program and to bear the
member's digest.  That this is the receipt at the place of that digest, and no
other, is not checked anywhere; it follows from what the program has written into
receipts before (`Books.Bound`).

A batch is walked through in two parts, the one that takes its accounts
(`takeBatch_ends`) and the one that executes it (`executeBatch_ends`).  It leaves
an effect like any other instruction, and besides what it did with each of its
members (`Served`): messages, accounts, receipts and results come in lists of
their own, and what stands at one place in one of them is used with what stands
at the same place in the others.
-/

namespace QuorumRelay

namespace Exec

open Inbound

variable {env : Environment} {A : List Passed} {m : Machine}

/-- The accounts of a member, and the receipt that was found for it. -/
def ReceiptFor (l : Ledger) (d : Digest) (found : MemberAccounts × Receipt) : Prop :=
  found.1.receipt.id = .receipt d ∧ l.books (.receipt d) = some found.2

/-- The digests of messages are those that their receipts bear. -/
theorem Allotted.digests {b : Bridge} {l : Ledger} {ms : List (InboundMessage × UInt8)}
    {accounts : List Passed} {found : List (MemberAccounts × Receipt)}
    (h : Allotted b l ms accounts found) :
    List.Forall₂ (fun message d => Digest.ofMessage b.hostChain b.identity message = .ok d)
      (ms.map Prod.fst) (found.map fun member => member.2.digest) := by
  induction h with
  | nil => exact .nil
  | cons _ digest _ _ ih => exact .cons digest ih

/-- **Each member is given the receipt of its own digest**, from the place of that digest. -/
theorem Allotted.receipts {b : Bridge} {l : Ledger} {ms : List (InboundMessage × UInt8)}
    {accounts : List Passed} {found : List (MemberAccounts × Receipt)}
    (h : Allotted b l ms accounts found) (hk : l.Kept) (hbound : l.books.Bound) :
    List.Forall₂ (ReceiptFor l) (found.map fun member => member.2.digest) found := by
  induction h with
  | nil => exact .nil
  | cons _ _ loaded _ ih => exact .cons (hk.receipt_of_load hbound loaded) ih

/-- A mark of a member that was not written ends the batch. -/
theorem Ends.checkMembersMarked {α : Type} {Q : α → Machine → Prop} {E : Refusal → Prop}
    {results : List MemberResult} {k : Unit → Exec α} (h : Ends A (k ()) m Q E) :
    Ends A (results.forM checkMemberMarked >>= k) m Q E := by
  induction results with
  | nil => exact h
  | cons r results ih =>
    refine .assoc ?_
    cases r with
    | skipped d => exact .ret ih
    | executed o => exact .checkMarked ih

/-- Noting what became of the members touches the log alone. -/
theorem Ends.noteMembers {α : Type} {Q : α → Machine → Prop} {E : Refusal → Prop}
    {ms : List (InboundMessage × MemberResult)} {k : Unit → Exec α}
    (h : ∀ notices, Ends A (k ()) (m.logging notices) Q E) :
    Ends A ((ms.forM fun (message, r) => noteMember message r) >>= k) m Q E := by
  induction ms generalizing m with
  | nil => exact h m.notices
  | cons first ms ih =>
    obtain ⟨message, r⟩ := first
    refine .assoc ?_
    cases r with
    | skipped d => exact .note (ih fun notices => h notices)
    | executed o => exact .noteFailure fun _ => ih fun notices => h notices

/-- What closing the receipts of a batch leaves of the machine. -/
structure Closed (l : Ledger) (books : Books) (closing : List (Digest × Receipt × MemberResult))
    (m : Machine) (events : List Event) (m' : Machine) : Prop where
  amends : l.Amends books m'.ledger
  lamports : ∀ id, m'.ledger.lamports id = m.ledger.lamports id
  /-- Only the receipts of executed members are written to. -/
  others : ∀ id, (∀ d receipt o, (d, receipt, .executed o) ∈ closing → id ≠ .receipt d) →
    m'.ledger.account id = m.ledger.account id
  remaining : m'.remaining = m.remaining
  calls : m'.calls = m.calls
  attempts : m'.attempts = m.attempts
  payments : m'.payments = m.payments
  events : m'.events = m.events ++ events

/-- **The receipts of the executed members are noted**, each at its digest's place. -/
theorem Ends.closeMembers {α : Type} {Q : α → Machine → Prop} {E : Refusal → Prop}
    {submitter : Key} {l : Ledger} {books : Books} {messages : List InboundMessage}
    {ds : List Digest} {found : List (MemberAccounts × Receipt)} {receipts : List Receipt}
    {results : List MemberResult} {k : Unit → Exec α}
    (hfound : List.Forall₂ (ReceiptFor l) ds found) (hmessages : messages.length = ds.length)
    (hreceipts : receipts.length = ds.length)
    (hresults : results.length = ds.length) (hamends : l.Amends books m.ledger)
    (h : ∀ m', Closed l (books.close submitter env.slot (ds.zip (receipts.zip results)))
      (ds.zip (receipts.zip results)) m
      ((messages.zip results).filterMap (memberEvent? submitter)) m' → Ends A (k ()) m' Q E) :
    Ends A (((messages.zip ((found.map Prod.fst).zip (receipts.zip results))).forM
      fun (message, a, receipt, r) => closeMember env submitter message a receipt r) >>= k)
      m Q E := by
  induction hfound generalizing messages receipts results books m with
  | nil =>
    obtain rfl := List.length_eq_zero_iff.1 hmessages
    exact h m ⟨hamends, fun _ => rfl, fun _ _ => rfl, rfl, rfl, rfl, rfl,
      (List.append_nil _).symm⟩
  | cons hfirst hrest ih =>
    rename_i d mine ds found
    obtain ⟨message, messages, rfl⟩ := List.exists_cons_of_length_eq_add_one hmessages
    obtain ⟨receipt, receipts, rfl⟩ := List.exists_cons_of_length_eq_add_one hreceipts
    obtain ⟨r, results, rfl⟩ := List.exists_cons_of_length_eq_add_one hresults
    simp only [List.length_cons, Nat.add_right_cancel_iff] at hmessages hreceipts hresults
    refine .assoc ?_
    cases r with
    | skipped _ =>
      refine .ret (ih hmessages hreceipts hresults hamends fun m' hm' => h m' { hm' with
        others := fun id hid => hm'.others id fun d' receipt' o' hmem => ?_ })
      exact hid d' receipt' o' (List.mem_cons_of_mem _ hmem)
    | executed o =>
      refine .assoc (.save (.receipt d) hfirst.1 (.emit ?_) fun _ => nofun)
      refine ih hmessages hreceipts hresults
        (hamends.change (.receipt d) hfirst.2 trivial nofun) fun m' hm' => ?_
      refine h m' ⟨hm'.amends, ?_, ?_, hm'.remaining, hm'.calls, hm'.attempts, hm'.payments, ?_⟩
      · intro id
        rw [hm'.lamports]
        exact Ledger.lamports_of_write ..
      · intro id hid
        have hne : id ≠ .receipt d := hid d receipt o List.mem_cons_self
        rw [hm'.others id fun d' receipt' o' hmem =>
          hid d' receipt' o' (List.mem_cons_of_mem _ hmem)]
        exact Ledger.account_write_of_ne (p := .receipt d) hne
      · rw [hm'.events]
        exact List.append_assoc ..

/-! ## Members -/

/-- **What a batch does with one member**, from one machine to another.  The receipt is the one
that was found for the member in the ledger `l`, and `l'` is the ledger that the batch leaves. -/
inductive MemberServed (env : Environment) (submitter : Key) (l l' : Ledger)
    (message : InboundMessage) (a : MemberAccounts) (receipt : Receipt) (w : Machine) :
    Machine → Prop
  | skipped (done : receipt.processed = true)
      (owner : (l'.account a.receipt.id).owner = (l.account a.receipt.id).owner)
      (data : (l'.account a.receipt.id).data = (l.account a.receipt.id).data) :
      MemberServed env submitter l l' message a receipt w w
  | executed {failure : Option Fault} {w' : Machine} (fresh : receipt.processed = false)
      (executable : (l.account a.program.id).executable = true)
      (destination : Address.ofKey a.program.id.key = message.destination)
      (inbox : a.inbox.id = .inbox a.program.id.key)
      (delivered : deliver ((routeOf l a).executor env a.receipt.id receipt) receipt.digest message
        w = .ok failure w')
      (recorded : Receipt.record.load (l'.account a.receipt.id) = .ok { receipt with
        processed := true
        sourceChain := message.sourceChain
        sourceNonce := message.sourceNonce
        succeeded := failure.isNone
        submitter
        processedAt := env.slot }) :
      MemberServed env submitter l l' message a receipt w w'

/-- **What a batch does with its members**: it serves one after the other, and nothing else in it
calls programs or pays. -/
structure Served (env : Environment) (l : Ledger) (messages : List InboundMessage)
    (t : BatchAccounts) (world : Nat → Machine) (m' : Machine) : Prop where
  calls : m'.calls = (world messages.length).calls
  attempts : m'.attempts = (world messages.length).attempts
  payments : m'.payments = (world messages.length).payments
  members : ∀ i message a receipt, messages[i]? = some message →
    t.members[i]? = some (a, receipt) →
    MemberServed env t.submitter.id.key l m'.ledger message a receipt (world i) (world (i + 1))

/-- The executors of members, each with the route and the receipt of its own. -/
def executors (env : Environment) (l : Ledger) (members : List (MemberAccounts × Receipt)) :
    List (Executor Machine) :=
  members.map fun (a, receipt) => (routeOf l a).executor env a.receipt.id receipt

/-- **A member's executor marks the receipt of the member's digest.** -/
theorem executes_of_member {l : Ledger} {found : List (MemberAccounts × Receipt)}
    {messages : List InboundMessage} {ds : List Digest} {receipts : List Receipt}
    {member : Member Machine} (hfound : List.Forall₂ (ReceiptFor l) ds found)
    (h : member ∈ (members messages ds receipts (executors env l found)).filter Member.pending) :
    Route.Executes env (· ∈ executedDigests messages ds receipts (executors env l found)) l
      member.executor := by
  obtain ⟨k, hk⟩ := List.mem_iff_getElem?.1 (List.mem_of_mem_filter h)
  obtain ⟨-, -, hdigest, hexecutor, -⟩ := getElem?_members.1 hk
  obtain ⟨⟨a, receipt⟩, hfound, hplace, -⟩ := forall₂_getElem? hfound hdigest
  refine ⟨routeOf l a, member.digest, receipt, rfl, List.mem_map_of_mem h, ?_⟩
  rw [executors, List.getElem?_map, hfound, Option.map_some, Option.some.injEq] at hexecutor
  have hid : a.receipt.id = .receipt member.digest := hplace
  rw [← hexecutor, ← hid]

/-- A member whose receipt was closed like all the others was served. -/
theorem memberServed_of_handled {l l' : Ledger} {submitter : Key} {message : InboundMessage}
    {a : MemberAccounts} {receipt receipt' : Receipt} {r : MemberResult} {w w' : Machine}
    {closing : List (Digest × Receipt × MemberResult)}
    (hplace : ReceiptFor l receipt.digest (a, receipt))
    (hhandled : Handled message receipt.digest ((routeOf l a).executor env a.receipt.id receipt)
      receipt w receipt' r w')
    (hmem : (receipt.digest, receipt', r) ∈ closing) (hdistinct : (closing.map Prod.fst).Nodup)
    (hbooks : l'.books (.receipt receipt.digest) =
      l.books.close submitter env.slot closing (.receipt receipt.digest))
    (hothers : (∀ d r o, (d, r, .executed o) ∈ closing → receipt.digest ≠ d) →
      l'.Owns (.receipt receipt.digest) ∧ (l'.account (.receipt receipt.digest)).data =
        (l.account (.receipt receipt.digest)).data) :
    MemberServed env submitter l l' message a receipt w w' := by
  obtain ⟨hid, hheld⟩ := hplace
  cases hhandled with
  | skipped done =>
    obtain ⟨howns, hdata⟩ := hothers fun d r o hexecuted heq => by
      have hsame := List.inj_on_of_nodup_map hdistinct hmem hexecuted heq
      simp at hsame
    have howned : l.Owns (.receipt receipt.digest) := Ledger.owns_of_entry hheld
    refine .skipped ?_ ?_ ?_
    · simpa [Receipt.contains] using done
    · rw [hid]
      exact Eq.trans howns howned.symm
    · rw [hid]
      exact hdata
  | executed fresh prepared inserted delivered =>
    obtain ⟨hexecutable, hdestination, hinbox⟩ := Route.prepare_eq_ok prepared
    obtain ⟨hprocessed, -, rfl⟩ := Receipt.insert_eq_ok.1 inserted
    rw [Books.close_of_executed hdistinct hmem] at hbooks
    refine .executed hprocessed hexecutable hdestination hinbox delivered ?_
    rw [hid]
    exact Ledger.load_receipt hbooks

/-- A batch whose receipts were closed has served its members, whatever it wrote to other places
afterwards. -/
theorem served_of_batched {sub : Submission} {t : BatchAccounts} {messages : List InboundMessage}
    {attestations : List Attestation} {ds : List Digest} {o : BatchOutcome}
    {s : BatchState Machine} {events : List Event} {notices : List Notice} {w m' m'' : Machine}
    (hfound : List.Forall₂ (ReceiptFor m.ledger) ds t.members)
    (hds : t.members.map (fun member => member.2.digest) = ds)
    (hbatched : Batched sub
      (executors env m.ledger t.members) messages attestations
      { chain := t.chain.value, roster := t.roster.value, receipts := t.members.map Prod.snd
        world := w } ds o s)
    (hmarks : m.ledger.Marks (· ∈ executedDigests messages ds (t.members.map Prod.snd)
      (executors env m.ledger t.members)) s.world.ledger)
    (hclosed : Closed m.ledger (m.ledger.books.close t.submitter.id.key env.slot
      (ds.zip (s.receipts.zip o.results))) (ds.zip (s.receipts.zip o.results))
      (s.world.logging notices) events m')
    (hcalls : m''.calls = m'.calls) (hattempts : m''.attempts = m'.attempts)
    (hpayments : m''.payments = m'.payments)
    (hreceipts : ∀ d, m''.ledger.account (.receipt d) = m'.ledger.account (.receipt d)) :
    ∃ world : Nat → Machine, world 0 = w ∧ Served env m.ledger messages t world m'' := by
  obtain ⟨world, hfirst, hlast, hhandled⟩ := hbatched.handled
  refine ⟨world, hfirst, ?_, ?_, ?_, fun i message a receipt hmessage ha => ?_⟩
  · rw [hlast, hcalls, hclosed.calls, Machine.logging_calls]
  · rw [hlast, hattempts, hclosed.attempts, Machine.logging_attempts]
  · rw [hlast, hpayments, hclosed.payments, Machine.logging_payments]
  have hmapped : ∀ {β : Type} (f : MemberAccounts × Receipt → β),
      (t.members.map f)[i]? = some (f (a, receipt)) := fun f => by
    rw [List.getElem?_map, ha, Option.map_some]
  have hdigest : ds[i]? = some receipt.digest := hds ▸ hmapped _
  obtain ⟨_, hmember, hplace⟩ := forall₂_getElem? hfound hdigest
  obtain rfl : (a, receipt) = _ := Option.some.inj (ha.symm.trans hmember)
  obtain ⟨receipt', r, hreceipt', hr, hserved⟩ := hhandled i message receipt.digest
    ((routeOf m.ledger a).executor env a.receipt.id receipt) receipt hmessage hdigest (hmapped _)
    (hmapped _)
  have hmem : (receipt.digest, receipt', r) ∈ ds.zip (s.receipts.zip o.results) :=
    List.mem_of_getElem? (List.getElem?_zip_eq_some.2
      ⟨hdigest, List.getElem?_zip_eq_some.2 ⟨hreceipt', hr⟩⟩)
  have hbooks : m''.ledger.books (.receipt receipt.digest) =
      m'.ledger.books (.receipt receipt.digest) :=
    Ledger.entry_congr (p := .receipt receipt.digest) (by rw [hreceipts]) (by rw [hreceipts])
  refine memberServed_of_handled hplace hserved hmem hbatched.nodup_closing ?_ fun hothers => ?_
  · rw [hbooks, hclosed.amends.books]
  · have hkept := hclosed.others (.receipt receipt.digest) fun d r o hmem heq =>
      hothers d r o hmem (AccountId.receipt.inj heq)
    have howned : m.ledger.Owns (.receipt receipt.digest) := Ledger.owns_of_entry hplace.2
    have hdata := hmarks.stays (.receipt receipt.digest) howned fun d hd heq => by
      obtain ⟨_, _, _, -, hexecuted, -⟩ := hbatched.marked hd
      exact hothers d _ _ hexecuted (AccountId.receipt.inj heq)
    have hsame := (hreceipts receipt.digest).trans hkept
    exact ⟨(congrArg Account.owner hsame).trans (hmarks.owns howned),
      (congrArg Account.data hsame).trans hdata⟩

/-- **A batch whose accounts have been taken is committed**, if it goes through, and has served its
members with them. -/
theorem executeBatch_ends {messages : List InboundMessage} {extras : List UInt8}
    {accounts : List Passed} {t : BatchAccounts} (hk : m.ledger.Kept)
    (hbound : m.ledger.books.Bound) (hd : env.destinations.Lawful)
    (ht : Taken A m.ledger messages extras accounts t) (attestations : List Attestation) :
    Ends A (executeBatch env messages attestations t) m
      (fun _ m' => Commits env A ⟨.processBatch, messages, attestations, extras⟩ m m' ∧
        ∃ world : Nat → Machine, world 0 = m ∧ Served env m.ledger messages t world m')
      fun _ => True := by
  obtain ⟨v, hv⟩ := ht.vault
  have hfound := ht.members.receipts hk hbound
  have hds := ht.members.digests
  rw [List.map_fst_zip (Nat.le_of_eq ht.counts.symm)] at hds
  generalize hown : t.members.map (fun member => member.2.digest) = ds at hfound hds
  unfold executeBatch
  refine .check (fun proven hproven => ?_) fun _ _ => trivial
  refine .get ?_
  refine .check (fun liquidity hliquidity => ?_) fun _ _ => trivial
  have hliquid := liquid_of_liquidity hliquidity
  refine .within (fun o s hstep => ?_) fun _ _ _ => trivial
  obtain ⟨own, hbatched⟩ := Inbound.batched_of_processBatch hstep
  obtain rfl : own = ds := List.right_unique_forall₂'
    (fun _ _ _ h h' => by simpa using h.symm.trans h') (except_mapM_eq_ok.1 hbatched.digests) hds
  obtain ⟨-, roster, chain, hran⟩ := hbatched.ran
  obtain ⟨ps, given, hforwarded, hps, hreaches⟩ := hran.delivered.forwarded hd
    (fun member hmember => executes_of_member hfound hmember) hbatched.prepared
    (Ledger.owns_of_entry hv)
  refine ⟨hforwarded.remaining, .checkMembersMarked (.noteMembers fun notices => ?_)⟩
  have hlen := hds.length_eq
  have hreceipts : s.receipts.length = own.length := by
    rw [hran.receipts_length]
    exact (List.length_map _).trans hfound.length_eq.symm
  have hresults : o.results.length = own.length := by
    rw [← hran.answers.length_eq, hbatched.length_members, hlen]
  have hopen := Ledger.Amends.refl m.ledger
  refine .closeMembers hfound hlen hreceipts hresults (hopen.mark hforwarded.marks)
    fun m' hm' => ?_
  have hsame : Books.close t.submitter.id.key env.slot s.world.ledger.books
      (own.zip (s.receipts.zip o.results)) = m.ledger.books.close t.submitter.id.key env.slot
        (own.zip (s.receipts.zip o.results)) := by
    refine (hopen.agreeBut hforwarded.marks).close hbatched.nodup_closing fun d hmarked => ?_
    obtain ⟨_, receipt, o, -, hmem, -⟩ := hbatched.marked hmarked
    exact ⟨receipt, o, hmem⟩
  rw [Machine.logging_ledger, hsame] at hm'
  refine .note (.heldSave (.chain t.chain.value.id) ht.chainId ?_)
  refine .last (.heldSave .roster ht.rosterId (.pure ?_))
  have hheld : List.Forall₂ (fun d receipt => m.ledger.books (.receipt d) = some receipt) own
      (t.members.map Prod.snd) := List.forall₂_map_right_iff.2 (hfound.imp fun _ _ h => h.2)
  have heffect : Effect env A (m.ledger.spendable .vault) m.ledger.books
      ⟨.processBatch, messages, attestations, extras⟩ _ _ :=
    .processBatch given ht.signed ht.bridge ht.chain ht.roster hv hheld hproven hliquid hbatched
      hps
  have hamends := hm'.amends.change (.chain t.chain.value.id) (v := s.chain) ht.chain trivial nofun
  have hamends := hamends.change .roster ht.roster
    (hbatched.change.fits (Ledger.fits_of_entry ht.roster)) nofun
  refine ⟨.of_forwarded hk hforwarded hreaches hamends heffect nofun ⟨rfl, rfl, rfl, rfl⟩
    (fun _ _ => rfl) ⟨by simp [hm'.lamports], hm'.attempts, hm'.payments, hm'.events⟩, ?_⟩
  refine served_of_batched hfound hown hbatched hforwarded.marks hm' rfl rfl rfl fun d => ?_
  have hchain : (m'.ledger.write (.chain t.chain.value.id) s.chain).account (.receipt d) =
      m'.ledger.account (.receipt d) := Ledger.account_write_of_ne nofun
  rw [← hchain]
  exact Ledger.account_write_of_ne (p := .roster) nofun

/-- **A batch that goes through is committed**, and its members were served with the accounts that
were taken for them. -/
theorem processBatch_ends (hk : m.ledger.Kept) (hbound : m.ledger.books.Bound)
    (hd : env.destinations.Lawful) (messages : List InboundMessage)
    (attestations : List Attestation) (extras : List UInt8) :
    Ends A (Exec.processBatch env messages attestations extras) m
      (fun _ m' => Commits env A ⟨.processBatch, messages, attestations, extras⟩ m m' ∧
        ∃ t, ∃ world : Nat → Machine, takeBatch messages extras m = .ok t (world 0) ∧
          Served env m.ledger messages t world m')
      fun _ => True := by
  rw [processBatch_eq]
  refine .bind ((takeBatch_ends messages extras).known.mono ?_ fun _ _ => trivial)
  rintro t _ ⟨htake, rfl, -, ht⟩
  refine (executeBatch_ends (m := m.handing (m.remaining.drop batchFixedAccounts)) hk hbound hd ht
    attestations).mono ?_ fun _ _ => trivial
  rintro _ m' ⟨hcommits, world, hfirst, hserved⟩
  exact ⟨⟨hcommits.kept, hcommits.effect, hcommits.vault, hcommits.funded⟩, t, world,
    hfirst ▸ htake, hserved⟩

end Exec
end QuorumRelay
