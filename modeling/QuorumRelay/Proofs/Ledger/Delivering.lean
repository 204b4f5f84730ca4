import QuorumRelay.Proofs.Ledger.Batching
import QuorumRelay.Proofs.Ledger.Storing

/-!
# Deliveries write back what they changed

Between reading its records and writing them a delivery marks its receipt and calls a destination
program, which may do anything that the host lets it do.  The one changes no size and the other no
account of the program (`Ledger.Marks`), so the room that was found before is there afterwards.

The mark is a record that is written back as well.  There is room for it because there is room for
the receipt, so a delivery never fails for want of it (`Route.marks_of_room`), and a batch finds the
same room at each of its members, whatever the deliveries before have done.

A batch closes its receipts one after the other.  What is asked for them is room for any receipt
at each place (`Stores.closeMembers`), which no write takes away.
-/

namespace QuorumRelay

/-! ## Marks -/

instance Route.innerStep_execute (env : Environment) (r : Route) (d : Digest)
    (message : InboundMessage) : InnerStep (r.execute env d message) := by
  unfold execute pay invoke
  refine .row fun _ => .row fun w => ?_
  refine .row fun _ => ?_
  split <;> infer_instance

/-- **Where there is room for a receipt, a delivery does not fail for its mark.** -/
theorem Route.marks_of_room {env : Environment} {r : Route} {d d' : Digest} {place : AccountId}
    {receipt : Receipt} {message : InboundMessage} {w w' : Machine} {failure : Option Fault}
    (hid : place = .receipt d') (hroom : w.ledger.Room (.receipt d') receipt)
    (h : Inbound.deliver (r.executor env place receipt) d message w = .ok failure w') :
    failure ≠ some (.access .unwritableRecord) := by
  subst hid
  rcases Inbound.deliver_eq_ok.1 h with ⟨-, rfl⟩ | ⟨e, herror, rfl⟩
  · nofun
  rw [Ne, Option.some.injEq]
  rcases bind_eq_error.1 herror with hbegin | ⟨_, w₁, hbegin, hmarking⟩
  · cases hbegin
  cases hbegin
  rcases bind_eq_error.1 hmarking with hmark | ⟨_, w₂, -, hdelivering⟩
  · obtain ⟨_, hmark, -⟩ := Action.on_eq_error.1 hmark
    cases (Ledger.mark_of_room hroom).symm.trans hmark
  · exact ((Route.innerStep_execute env r d message).inner _ e _ hdelivering).ne_access _

/-- **Where there is room for the receipts of a batch, none of its members fails for its mark**: the
deliveries before it leave the accounts as large as they were. -/
theorem Inbound.Batched.unmarked_eq_false {env : Environment} {l : Ledger} {s : Submission}
    {executors : List (Executor Machine)} {messages : List InboundMessage}
    {attestations : List Attestation} {st st' : BatchState Machine} {ds : List Digest}
    {o : BatchOutcome} (h : Batched s executors messages attestations st ds o st')
    (hd : env.destinations.Lawful) (hv : st.world.ledger.Owns .vault)
    (hroutes : ∀ m ∈ (members messages ds st.receipts executors).filter Member.pending,
      Route.Executes env (fun d => ∀ r, st.world.ledger.Room (.receipt d) r) l m.executor) :
    ∀ outcome, .executed outcome ∈ o.results → outcome.unmarked = false := by
  obtain ⟨reward, world, hzero, -, hserves⟩ := h.worlds
  have hlength := h.length_members
  have hsizes : ∀ k ≤ messages.length, st.world.ledger.SameSizes (world k).ledger := by
    intro k hk
    induction k with
    | zero => exact hzero ▸ .refl _
    | succ k ih =>
      have hbefore := ih (Nat.le_of_succ_le hk)
      have hmember := List.getElem?_eq_getElem (hlength.symm ▸ hk)
      obtain ⟨r, -, hserved⟩ := hserves k _ hmember
      generalize world (k + 1) = w' at hserved ⊢
      cases hserved with
      | skipped => exact hbefore
      | executed pending delivered =>
        have hmem := List.mem_filter.2 ⟨List.mem_of_getElem? hmember, pending⟩
        obtain ⟨r, d, receipt, -, -, hexecutor⟩ := hroutes _ hmem
        have hprepared := h.prepared _ hmem
        rw [hexecutor] at delivered hprepared
        obtain ⟨_, _, hforwarded, -⟩ := Route.forwarded_of_executor (D := fun _ => True) receipt
          trivial hd (hbefore .vault hv).1 hprepared
        rw [after_of_deliver delivered] at hforwarded
        exact hbefore.trans hforwarded.marks.sizes
  intro outcome houtcome
  obtain ⟨k, hk⟩ := List.mem_iff_getElem?.1 houtcome
  obtain ⟨-, _, _, hran⟩ := h.ran
  obtain ⟨m, hm, -⟩ := forall₂_getElem? hran.answers.flip hk
  obtain ⟨r, hr, hserved⟩ := hserves k m hm
  obtain rfl := Option.some.inj (hk.symm.trans hr)
  generalize world (k + 1) = w' at hserved
  cases hserved with
  | executed pending delivered =>
    obtain ⟨r, d, receipt, -, hroom, hexecutor⟩ :=
      hroutes m (List.mem_filter.2 ⟨List.mem_of_getElem? hm, pending⟩)
    rw [hexecutor] at delivered
    have hlt : k < messages.length := hlength ▸ (List.getElem?_eq_some_iff.1 hm).1
    exact decide_eq_false
      (Route.marks_of_room rfl ((hroom receipt).mono (hsizes k (Nat.le_of_lt hlt))) delivered)

namespace Exec

variable {env : Environment} {l : Ledger}

theorem openReceipt_stores (digest : Digest) : Stores l l (Exec.openReceipt digest) := by
  unfold Exec.openReceipt
  refine .look .takeFresh fun receipt _ => ?_
  refine .look .takeSigner fun payer _ => ?_
  refine .look .takeSystemProgram fun _ _ => ?_
  refine .initIfNeeded fun hplace r l' _ howns hsize => ?_
  refine .look .checkWritable fun _ _ => ?_
  refine .look .check fun _ _ => ?_
  exact .last (.heldSave (.receipt digest) hplace ⟨howns, trivial, hsize⟩ .pure)

theorem openCursor_stores (source : ChainId) (sender : List UInt8) :
    Stores l l (Exec.openCursor source sender) := by
  unfold Exec.openCursor
  refine .look .takeFresh fun cursor _ => ?_
  refine .look .takeSigner fun payer _ => ?_
  refine .look .takeSystemProgram fun _ _ => ?_
  refine .initIfNeeded fun hplace c l' _ howns hsize => ?_
  refine .look .checkWritable fun _ _ => ?_
  refine .look .check fun _ _ => ?_
  split
  · refine .look .note fun _ _ => ?_
    exact .last (.heldSave (.cursor source (Digest.ofSender sender)) hplace
      ⟨howns, trivial, hsize⟩ .pure)
  · exact .last (.heldSave (.cursor source (Digest.ofSender sender)) hplace
      ⟨howns, trivial, hsize⟩ .pure)

/-- Noting a failure touches the log alone. -/
theorem Looks.noteFailure {o : Inbound.Outcome} :
    Looks l (Exec.noteFailure o) fun _ => True := by
  unfold Exec.noteFailure
  split
  · exact .pure trivial
  · exact .note

/-- A mark that was written lets the instruction go on. -/
theorem Looks.checkMarked {o : Inbound.Outcome} (h : o.unmarked = false) :
    Looks l (Exec.checkMarked o) fun _ => True := by
  unfold Exec.checkMarked
  rw [h]
  exact .pure trivial

/-- A record that may be left out is checked if it is there. -/
theorem Stores.either {α σ : Type} {l₀ : Ledger} {x : Exec α} (rest : Unit → Exec α)
    (hx : x = rest () ∨ ∃ held : Held σ, x = held.checkWritable >>= rest)
    (h : Stores l₀ l (rest ())) : Stores l₀ l x := by
  obtain rfl | ⟨held, rfl⟩ := hx
  · exact h
  · exact .look .heldWritable fun _ _ => h

theorem processMessage_stores (hk : l.Kept) (hr : l.Roomy) (hd : env.destinations.Lawful)
    (digest : Digest) (message : InboundMessage) (attestations : List Attestation) :
    Stores l l (Exec.processMessage env digest message attestations) := by
  unfold Exec.processMessage
  refine .look .takeRecord fun bridge _ => ?_
  refine .look .takeRecord fun chain hc => ?_
  refine .look .takeRecord fun roster hload => ?_
  refine .look .takeFresh fun receipt _ => ?_
  refine .look .takeOptional fun cursor hcursor => ?_
  refine .look .takeRecord fun vault hv => ?_
  refine .look .take fun executor _ => ?_
  refine .look .take fun program _ => ?_
  refine .look .take fun inbox _ => ?_
  refine .look .take fun instructions _ => ?_
  refine .look .takeSigner fun submitter _ => ?_
  refine .look .takeSystemProgram fun _ _ => ?_
  refine .initIfNeeded fun hplace r l' hkeeps howns hsize => ?_
  refine .look .heldSeeds fun _ _ => ?_
  refine .look .heldSeeds fun _ hchain => ?_
  refine .look .heldWritable fun _ _ => ?_
  refine .look .heldSeeds fun _ hroster => ?_
  refine .look .heldWritable fun _ _ => ?_
  extract_lets opened rest
  refine .either (σ := Cursor) rest ?_ ?_
  · cases cursor with
    | none => exact .inl rfl
    | some held => exact .inr ⟨held, rfl⟩
  refine .look .heldSeeds fun _ hvault => ?_
  refine .look .heldWritable fun _ _ => ?_
  refine .look .checkSeeds fun _ _ => ?_
  refine .look .checkWritable fun _ _ => ?_
  refine .look .checkAddress fun _ _ => ?_
  refine .look .checkWritable fun _ _ => ?_
  refine .look .check fun _ _ => ?_
  refine .look .check fun proven _ => ?_
  refine .look .get fun before hbefore => ?_
  refine .look .check fun liquidity _ => ?_
  have hvaultOwned := hkeeps.owns (hr.room .vault hv hvault).owns
  have hchainRoom := (hr.room (.chain message.sourceChain) hc hchain).mono hkeeps.sameSizes
  have hrosterRoom := (hr.room .roster hload hroster).mono hkeeps.sameSizes
  refine .within inferInstance fun m o s hm hstep => ?_
  have hprocessed := Inbound.processed_of_process hstep
  have hreceiptRoom : ∀ v, l'.Room (.receipt digest) v := fun _ => ⟨howns, trivial, hsize⟩
  obtain ⟨_, _, hforwarded, -⟩ := hprocessed.forwarded (D := (· = digest)) (l := before.ledger) hd
    hplace rfl rfl (show m.ledger.Owns .vault from hm ▸ hvaultOwned)
  have hmarks : l'.Marks (· = digest) s.world.ledger := hm ▸ hforwarded.marks
  refine ⟨hmarks.sizes, fun hr' => hmarks.roomy hr' fun d hd => hd ▸ hreceiptRoom, ?_⟩
  have hmarked := Route.marks_of_room hplace (hm ▸ hreceiptRoom opened) hprocessed.delivered
  refine .look (.checkMarked (decide_eq_false hmarked)) fun _ _ => ?_
  refine .look .noteFailure fun _ _ => ?_
  refine .look .emit fun _ _ => .look .note fun _ _ => ?_
  have hchange := Inbound.creditSubmitter_change hprocessed.credited
  refine .heldSave (.chain message.sourceChain) hchain (hchainRoom.change trivial rfl) ?_
  refine .heldSave .roster hroster (hchange.room hrosterRoom) ?_
  refine .heldSave (.receipt digest) hplace (hreceiptRoom _) ?_
  cases cursor with
  | none => exact .last .pure
  | some held =>
    obtain ⟨source, senderKey, hid⟩ := hk.exists_sender_of_load (hcursor held rfl)
    have hroom := (hr.room (.cursor source senderKey) (hcursor held rfl) hid).mono hkeeps.sameSizes
    cases s.cursor with
    | none => exact .last .pure
    | some c =>
      exact .last (.heldSave (.cursor source senderKey) hid (hroom.change trivial rfl) .pure)

/-! ## Batches -/

/-- The receipt of a member is read from the account that was given for it. -/
theorem Looks.takeReceipt {p : Passed} {digest : Digest} :
    Looks l (Exec.takeReceipt p digest) fun r => Receipt.record.load (l.account p.id) = .ok r := by
  unfold Exec.takeReceipt
  refine .bind .account ?_
  rintro _ rfl
  have hload := Receipt.record.load_ne_unwritable (l.account p.id)
  split
  · rename_i f hf
    rw [hf] at hload
    exact .fail fun heq => hload (congrArg _ (Fault.access.inj heq))
  · rename_i r hr
    exact .bind .check fun _ _ => .pure hr

theorem Looks.takeMembers {b : Bridge} {ms : List (InboundMessage × UInt8)}
    {accounts : List Passed} : Looks l (Exec.takeMembers b ms accounts) fun found =>
      ∀ x ∈ found, Receipt.record.load (l.account x.1.receipt.id) = .ok x.2 := by
  induction ms generalizing accounts with
  | nil =>
    unfold Exec.takeMembers
    exact .bind .check fun _ _ => .pure (List.forall_mem_nil _)
  | cons first ms ih =>
    unfold Exec.takeMembers
    split
    · exact .fail nofun
    · refine .bind .check fun _ _ => .bind .takeReceipt fun receipt hreceipt => ?_
      exact .bind ih fun found hfound => .pure (List.forall_mem_cons.2 ⟨hreceipt, hfound⟩)

/-- Marks that were written let the batch go on. -/
theorem Looks.checkMembersMarked {results : List Inbound.MemberResult}
    (h : ∀ o, .executed o ∈ results → o.unmarked = false) :
    Looks l (results.forM checkMemberMarked) fun _ => True := by
  induction results with
  | nil => exact .pure trivial
  | cons r results ih =>
    refine .bind (P := fun _ => True) ?_ fun _ _ => ih fun o ho => h o (List.mem_cons_of_mem _ ho)
    cases r with
    | skipped d => exact .pure trivial
    | executed o => exact .checkMarked (h o List.mem_cons_self)

/-- Noting what became of the members touches the log alone. -/
theorem Looks.noteMembers {ms : List (InboundMessage × Inbound.MemberResult)} :
    Looks l (ms.forM fun (m, r) => noteMember m r) fun _ => True := by
  induction ms with
  | nil => exact .pure trivial
  | cons first ms ih =>
    obtain ⟨m, r⟩ := first
    refine .bind (P := fun _ => True) ?_ fun _ _ => ih
    cases r with
    | skipped d => exact .note
    | executed o => exact .noteFailure

/-- **The receipts of the members are written back**, where there is room for them. -/
theorem Stores.closeMembers {α : Type} {l₀ : Ledger} {submitter : Key}
    {ms : List (InboundMessage × MemberAccounts × Receipt × Inbound.MemberResult)}
    {k : Unit → Exec α}
    (hrooms : ∀ x ∈ ms, ∃ d, x.2.1.receipt.id = .receipt d ∧ ∀ r, l₀.Room (.receipt d) r)
    (h : ∀ l', Stores l₀ l' (k ())) :
    Stores l₀ l ((ms.forM fun (m, a, receipt, r) => closeMember env submitter m a receipt r) >>=
      k) := by
  induction ms generalizing l with
  | nil => exact h l
  | cons first ms ih =>
    obtain ⟨m, a, receipt, r⟩ := first
    rw [List.forall_mem_cons] at hrooms
    obtain ⟨⟨d, hid, hroom⟩, hrooms⟩ := hrooms
    refine .assoc ?_
    cases r with
    | skipped _ => exact .look (.pure (P := fun _ => True) trivial) fun _ _ => ih hrooms
    | executed o =>
      refine .assoc (.save (.receipt d) hid (hroom _) ?_)
      exact .look .emit fun _ _ => ih hrooms

theorem processBatch_stores (hk : l.Kept) (hr : l.Roomy) (hd : env.destinations.Lawful)
    (messages : List InboundMessage) (attestations : List Attestation) (extras : List UInt8) :
    Stores l l (Exec.processBatch env messages attestations extras) := by
  unfold Exec.processBatch
  refine .look .takeRecord fun bridge _ => ?_
  refine .look .takeRecord fun chain hc => ?_
  refine .look .takeRecord fun roster hload => ?_
  refine .look .takeRecord fun vault hv => ?_
  refine .look .take fun executor _ => ?_
  refine .look .take fun instructions _ => ?_
  refine .look .takeSigner fun submitter _ => ?_
  refine .look .heldSeeds fun _ _ => ?_
  refine .look .heldSeeds fun _ hchain => ?_
  refine .look .heldWritable fun _ _ => ?_
  refine .look .heldSeeds fun _ hroster => ?_
  refine .look .heldWritable fun _ _ => ?_
  refine .look .heldSeeds fun _ hvault => ?_
  refine .look .heldWritable fun _ _ => ?_
  refine .look .checkSeeds fun _ _ => ?_
  refine .look .checkAddress fun _ _ => ?_
  refine .look .checkWritable fun _ _ => ?_
  refine .look .check fun _ _ => ?_
  refine .look .check fun _ _ => ?_
  refine .look .get fun _ _ => ?_
  refine .look .takeMembers fun found hfound => ?_
  refine .look .check fun proven _ => ?_
  refine .look .get fun before hbefore => ?_
  refine .look .check fun liquidity _ => ?_
  have hprepare : ∀ e ∈ executors env before.ledger found, ∀ m, InnerCheck (e.prepare m) := by
    intro e he m
    obtain ⟨x, -, rfl⟩ := List.mem_map.1 he
    infer_instance
  -- each receipt that is marked was found, so there is room for it
  have hrooms : ∀ x ∈ found, ∃ d, x.1.receipt.id = .receipt d ∧ ∀ r, l.Room (.receipt d) r := by
    intro x hx
    obtain ⟨d, hid⟩ := hk.exists_digest_of_load (hfound x hx)
    have hroom := hr.room (.receipt d) (hfound x hx) hid
    exact ⟨d, hid, fun _ => hroom.change trivial rfl⟩
  refine .within (Inbound.innerStep_processBatch _ _ _ _ hprepare) fun m o s hm hstep => ?_
  obtain ⟨ds, hbatched⟩ := Inbound.batched_of_processBatch hstep
  obtain ⟨-, _, _, hran⟩ := hbatched.ran
  have hroutes : ∀ member ∈ (Inbound.members messages ds (found.map Prod.snd)
      (executors env before.ledger found)).filter Inbound.Member.pending,
      Route.Executes env (fun d => ∀ r, l.Room (.receipt d) r) before.ledger member.executor := by
    intro member hmember
    obtain ⟨x, hx, hexecutor⟩ :=
      List.mem_map.1 (Inbound.executor_mem (List.mem_of_mem_filter hmember))
    obtain ⟨d, hid, hroom⟩ := hrooms x hx
    exact ⟨routeOf before.ledger x.1, d, x.2, rfl, hroom, by rw [← hexecutor, ← hid]⟩
  have hvaultOwned : m.ledger.Owns .vault := hm ▸ (hr.room .vault hv hvault).owns
  obtain ⟨_, _, hforwarded, -⟩ :=
    hran.delivered.forwarded hd hroutes hbatched.prepared hvaultOwned
  have hmarks : l.Marks (fun d => ∀ r, l.Room (.receipt d) r) s.world.ledger :=
    hm ▸ hforwarded.marks
  refine ⟨hmarks.sizes, fun hr' => hmarks.roomy hr' fun _ hroom => hroom, ?_⟩
  refine .look (.checkMembersMarked (hbatched.unmarked_eq_false hd hvaultOwned
    (l := before.ledger) (hm ▸ hroutes))) fun _ _ => ?_
  refine .look .noteMembers fun _ _ => ?_
  refine .closeMembers (fun x hx => ?_) fun l' => ?_
  · obtain ⟨y, hy, hya⟩ := List.mem_map.1 (List.of_mem_zip (List.of_mem_zip hx).2).1
    obtain ⟨d, hid, hroom⟩ := hrooms y hy
    exact ⟨d, hya ▸ hid, hroom⟩
  refine .look .note fun _ _ => ?_
  have hchainRoom := hr.room (.chain chain.value.id) hc hchain
  have hrosterRoom := hbatched.change.room (hr.room .roster hload hroster)
  refine .heldSave (.chain chain.value.id) hchain (hchainRoom.change trivial rfl) ?_
  exact .last (.heldSave .roster hroster hrosterRoom .pure)

end Exec

open Exec in
/-- **Every instruction writes back what it changed**, or fails before. -/
theorem Instruction.exec_stores {env : Environment} {l : Ledger} (hk : l.Kept) (hr : l.Roomy)
    (hd : env.destinations.Lawful) (i : Instruction) : Stores l l (i.exec env) := by
  obtain ⟨kind, args⟩ := i
  cases kind with
  | createBridge => exact (createBridge_stores args).value _
  | configureChain => exact (configureChain_stores args.1 args.2).value _
  | setChainActive => exact (setChainActive_stores hr args.1 args.2).value _
  | sendMessage => exact (sendMessage_stores hr args).value _
  | sendSponsored => exact (sendSponsored_stores hr args).value _
  | estimateFee => exact (estimateFee_stores args.1 args.2.1 args.2.2).value _
  | markRelayed => exact (markRelayed_stores hr args).value _
  | confirmDelivery => exact (confirmDelivery_stores hr args.1 args.2).value _
  | reclaim => exact (reclaim_stores hr args).value _
  | processMessage => exact (processMessage_stores hk hr hd args.1 args.2.1 args.2.2).value _
  | processBatch => exact (processBatch_stores hk hr hd args.1 args.2.1 args.2.2).value _
  | openReceipt => exact (openReceipt_stores args).value _
  | openCursor => exact (openCursor_stores args.1 args.2).value _
  | registerRelayer => exact (registerRelayer_stores hr args.1 args.2).value _
  | unregisterRelayer => exact (unregisterRelayer_stores hr args).value _
  | removeRelayer => exact (removeRelayer_stores hr args).value _
  | updateThreshold => exact (updateThreshold_stores hr args).value _
  | claimCompensation => exact (claimCompensation_stores hr args.1 args.2).value _
  | setFeeSchedule => exact (setFeeSchedule_stores hr args).value _
  | setAuthority => exact (setAuthority_stores hr args).value _
  | openSponsor => exact openSponsor_stores.value _
  | depositSponsor => exact (depositSponsor_stores hr args).value _
  | withdrawSponsor => exact (withdrawSponsor_stores hr args).value _
  | setSponsoredTarget => exact (setSponsoredTarget_stores hr args.1 args.2).value _

end QuorumRelay
