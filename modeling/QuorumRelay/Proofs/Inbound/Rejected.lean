import QuorumRelay.Proofs.Inbound.Batch

/-!
# Rejected submissions leave no trace

A submission checks, credits the submitter, and then marks, counts and delivers
(`process_eq`, `processBatch_eq`).  The checks have no record to write to, so a
submission that fails one of them changes nothing.

## What can fail late

Crediting is the first write, and it can fail: the sum may not fit.  It finds
that out before it writes.  What follows the credit could fail at a receipt that
stands for another digest or is marked already, and nowhere else.  A receipt that
serves the message's digest (`Receipt.Serves`) and passed the check for a replay
is neither; in a batch no member touches the receipt of another one.  So what
follows the credit gives a result, and a failure is one of the checks or of the
credit (`process_eq_error_iff`, `processBatch_eq_error_iff`).

## What was not called

That no destination was called is said without watching the calls: whatever the
executors would do in place of what they do, the submission fails in the same
way.  The checks on a destination stay the same, since they come before.
-/

namespace QuorumRelay

/-! ## Receipts -/

namespace Receipt

variable {r : Receipt} {d : Digest}

/-- A receipt that serves a digest is bound to it or not bound yet, and marks no other. -/
def Serves (d : Digest) (r : Receipt) : Prop :=
  (r.digest = .zero ∨ r.digest = d) ∧ (r.processed = true → r.digest = d)

/-- A digest that is not marked yet can be marked in a receipt that serves it. -/
theorem Serves.insert (h : r.Serves d) (hfresh : r.contains d = false) :
    Receipt.insert d r = .ok () { r with digest := d, processed := true } := by
  have hunmarked : r.processed = false := by
    cases hmarked : r.processed with
    | false => rfl
    | true => rw [contains_eq_true.2 ⟨hmarked, h.2 hmarked⟩] at hfresh; cases hfresh
  exact insert_eq_ok.2 ⟨hunmarked, h.1, rfl⟩

end Receipt

/-- An executor with its checks as they are and another delivery. -/
def Executor.redirect {ω : Type} (execute : Digest → InboundMessage → Action ω Unit)
    (executor : Executor ω) : Executor ω :=
  { executor with execute }

namespace Inbound

variable {ω : Type} {s : Submission}

/-! ## The credit -/

/-- A delivery always gives a result. -/
theorem exists_deliver (executor : Executor ω) (digest : Digest) (m : InboundMessage) (w : ω) :
    ∃ failure w', deliver executor digest m w = .ok failure w' := by
  unfold deliver
  cases executor.execute digest m w with
  | ok _ w' => exact ⟨none, w', rfl⟩
  | error e w' => exact ⟨some e, w', rfl⟩

/-- A credit that fails has not written. -/
theorem creditSubmitter_eq_error {n : Nat} {r r' : Roster} {f : Fault}
    (h : creditSubmitter s n r = .error f r') : r' = r := by
  unfold creditSubmitter at h
  rcases lift_bind_eq_error.1 h with ⟨-, rfl⟩ | ⟨amount, -, h⟩
  · rfl
  by_cases hzero : amount = 0
  · simp only [hzero, if_true, pure_ne_error] at h
  simp only [hzero, if_false, get_bind] at h
  cases howner : r.indexOfOwner s.submitter with
  | none => simp only [howner, pure_ne_error] at h
  | some index =>
    simp only [howner, bind_eq_error, pure_ne_error, and_false, exists_false, or_false] at h
    exact Roster.credit_eq_error h

/-! ## One message -/

section Single

variable {executor : Executor ω} {m : InboundMessage} {attestations : List Attestation}
  {st st' : State ω} {digest : Digest} {window : RateWindow} {reward : Amount} {f : Fault}

/-- What is left to do after the credit cannot fail. -/
theorem exists_commit (hserves : st.receipt.Serves digest)
    (hfresh : st.receipt.contains digest = false) :
    ∃ o st', commit executor m digest window reward st = .ok o st' := by
  obtain ⟨failure, world, hdeliver⟩ := exists_deliver executor digest m st.world
  exact ⟨_, _, commit_eq_ok.2 ⟨_, failure, world, hserves.insert hfresh, hdeliver, rfl, rfl⟩⟩

/-- A submission that passed its checks and was credited gives a result. -/
theorem exists_process_of_credited
    (hserves : ∀ d, Digest.ofMessage s.bridge.hostChain s.bridge.identity m = .ok d →
      st.receipt.Serves d) {p : Digest × RateWindow} {roster : Roster}
    (hvet : vet s executor m attestations st = .ok p)
    (hcredit : creditSubmitter s 1 st.roster = .ok reward roster) :
    ∃ o st', process s executor m attestations st = .ok o st' := by
  obtain ⟨hdigest, hfresh, -⟩ := vet_eq_ok.1 hvet
  obtain ⟨o, st', hcommit⟩ : ∃ o st', commit executor m p.1 p.2 reward { st with roster } =
      .ok o st' := exists_commit (hserves _ hdigest) hfresh
  exact ⟨o, st', process_eq_ok.2 ⟨p.1, p.2, reward, roster, hvet, hcredit, hcommit⟩⟩

/-- **A message is rejected by a check or by the credit**, and leaves everything as it was. -/
theorem process_eq_error_iff
    (hserves : ∀ d, Digest.ofMessage s.bridge.hostChain s.bridge.identity m = .ok d →
      st.receipt.Serves d) :
    process s executor m attestations st = .error f st' ↔
      st' = st ∧ (vet s executor m attestations st = .error f ∨
        ∃ p, vet s executor m attestations st = .ok p ∧
          creditSubmitter s 1 st.roster = .error f st.roster) := by
  constructor
  · intro h
    have hsplit := h
    rw [process_eq, lift_bind_eq_error] at hsplit
    rcases hsplit with ⟨hvet, rfl⟩ | ⟨p, hvet, hsplit⟩
    · exact ⟨rfl, .inl hvet⟩
    rcases bind_eq_error.1 hsplit with hcredit | ⟨reward, st₁, hcredit, -⟩
    · obtain ⟨roster, hfailed, rfl⟩ := Action.on_eq_error.1 hcredit
      obtain rfl := creditSubmitter_eq_error hfailed
      exact ⟨rfl, .inr ⟨p, hvet, hfailed⟩⟩
    · obtain ⟨roster, hcredit, -⟩ := Action.on_eq_ok.1 hcredit
      obtain ⟨o, st₂, hok⟩ := exists_process_of_credited hserves hvet hcredit
      rw [hok] at h
      cases h
  · rintro ⟨rfl, hvet | ⟨p, hvet, hcredit⟩⟩
    · rw [process_eq, lift_bind_eq_error]
      exact .inl ⟨hvet, rfl⟩
    · rw [process_eq, lift_bind_eq_error]
      refine .inr ⟨p, hvet, bind_eq_error.2 (.inl ?_)⟩
      exact Action.on_eq_error.2 ⟨_, hcredit, rfl⟩

end Single

/-! ## A batch -/

section Whole

variable {executors : List (Executor ω)} {messages : List InboundMessage} {ds : List Digest}
  {attestations : List Attestation} {st st' : BatchState ω} {ms : List (Member ω)}
  {window : RateWindow} {digest : Digest} {reward : Amount} {f : Fault}

/-- The receipts of the members that are still to be executed can be marked. -/
def Markable (ms : List (Member ω)) (st : BatchState ω) : Prop :=
  ∀ m ∈ ms, m.pending = true →
    ∃ receipt, Receipt.insert m.digest (st.receipts.getD m.index {}) = .ok () receipt

/-- A member whose receipt can be marked is run through. -/
theorem exists_runMember {m : Member ω}
    (h : m.pending = true →
      ∃ receipt, Receipt.insert m.digest (st.receipts.getD m.index {}) = .ok () receipt) :
    ∃ r st', runMember reward m st = .ok r st' := by
  cases hpending : m.pending with
  | false => exact ⟨_, st, (runMember_eq_ok_of_not_pending hpending).2 ⟨rfl, rfl⟩⟩
  | true =>
    obtain ⟨receipt, hinsert⟩ := h hpending
    obtain ⟨failure, world, hdeliver⟩ := exists_deliver m.executor m.digest m.message st.world
    exact ⟨_, _, (runMember_eq_ok_of_pending hpending).2
      ⟨receipt, failure, world, hinsert, hdeliver, rfl, rfl⟩⟩

theorem exists_mapM_runMember (hplaces : (ms.map Member.index).Nodup)
    (hmarkable : Markable ms st) :
    ∃ results st', ms.mapM (runMember reward) st = .ok results st' := by
  induction ms generalizing st with
  | nil => exact ⟨[], st, rfl⟩
  | cons m ms ih =>
    rw [List.map_cons, List.nodup_cons] at hplaces
    obtain ⟨r, st₁, hfirst⟩ : ∃ r st₁, runMember reward m st = .ok r st₁ :=
      exists_runMember (hmarkable m List.mem_cons_self)
    have hrest : Markable ms st₁ := by
      intro m' hm' hpending
      rw [(runMember_keeps hfirst).2.2]
      · exact hmarkable m' (List.mem_cons_of_mem _ hm') hpending
      · exact fun heq => hplaces.1 (heq ▸ List.mem_map_of_mem hm')
    obtain ⟨results, st₂, hmapM⟩ := ih hplaces.2 hrest
    exact ⟨r :: results, st₂, mapM_cons_eq_ok.2 ⟨r, st₁, results, hfirst, hmapM, rfl⟩⟩

theorem nodup_index_members (messages : List InboundMessage) (ds : List Digest)
    (receipts : List Receipt) (executors : List (Executor ω)) :
    ((members messages ds receipts executors).map Member.index).Nodup := by
  rw [map_index_members]
  exact List.nodup_range

/-- Receipts that serve the digests of their messages can be marked, where they are not marked
yet. -/
theorem markable_members (hds : digests s.bridge messages = .ok ds)
    (hserves : ∀ p ∈ messages.zip st.receipts, ∀ d,
      Digest.ofMessage s.bridge.hostChain s.bridge.identity p.1 = .ok d → p.2.Serves d) :
    Markable (members messages ds st.receipts executors) st := by
  intro m hm hpending
  obtain ⟨hof, hreceipt, -, hfresh⟩ := own_of_mem_members hds hm
  rw [hpending] at hfresh
  exact ⟨_, (hserves _ hreceipt _ hof).insert (by simpa using hfresh.symm)⟩

/-- A batch that passed its checks and was credited gives a result. -/
theorem exists_processBatch_of_credited
    (hserves : ∀ p ∈ messages.zip st.receipts, ∀ d,
      Digest.ofMessage s.bridge.hostChain s.bridge.identity p.1 = .ok d → p.2.Serves d)
    {p : List (Member ω) × RateWindow × Digest} {st₁ : BatchState ω}
    (hvet : vetBatch s executors messages attestations st = .ok p)
    (hcredit : creditEach s (p.1.filter Member.pending).length st = .ok reward st₁) :
    ∃ o st', processBatch s executors messages attestations st = .ok o st' := by
  obtain ⟨-, -, -, -, -, ds, hds, -, hms, -⟩ := vetBatch_eq_ok.1 hvet
  have hmarkable : Markable p.1 st₁ := by
    rw [hms, (creditEach_eq_ok hcredit).1]
    exact markable_members hds hserves
  have hplaces : (p.1.map Member.index).Nodup := hms ▸ nodup_index_members _ _ _ _
  obtain ⟨results, st₂, hrun⟩ : ∃ results st₂, p.1.mapM (runMember reward)
      { st₁ with chain := { st₁.chain with inbound := p.2.1 } } = .ok results st₂ :=
    exists_mapM_runMember hplaces hmarkable
  exact ⟨⟨p.2.2, results⟩, st₂, processBatch_eq_ok.2 ⟨p.1, p.2.1, reward, st₁, hvet, hcredit, hrun⟩⟩

theorem creditEach_eq_error {count : Nat} (h : creditEach s count st = .error f st') :
    st' = st := by
  unfold creditEach BatchState.onRoster at h
  by_cases hzero : count = 0
  · simp only [hzero, if_true, pure_ne_error] at h
  · simp only [hzero, if_false, bind_eq_error, pure_ne_error, and_false, exists_false, or_false,
      Action.on_eq_error] at h
    obtain ⟨roster, hcredit, rfl⟩ := h
    rw [creditSubmitter_eq_error hcredit]

/-- **A batch is rejected by a check or by the credit**, and leaves everything as it was. -/
theorem processBatch_eq_error_iff
    (hserves : ∀ p ∈ messages.zip st.receipts, ∀ d,
      Digest.ofMessage s.bridge.hostChain s.bridge.identity p.1 = .ok d → p.2.Serves d) :
    processBatch s executors messages attestations st = .error f st' ↔
      st' = st ∧ (vetBatch s executors messages attestations st = .error f ∨
        ∃ p, vetBatch s executors messages attestations st = .ok p ∧
          creditEach s (p.1.filter Member.pending).length st = .error f st) := by
  constructor
  · intro h
    have hsplit := h
    rw [processBatch_eq, lift_bind_eq_error] at hsplit
    rcases hsplit with ⟨hvet, rfl⟩ | ⟨p, hvet, hsplit⟩
    · exact ⟨rfl, .inl hvet⟩
    rcases bind_eq_error.1 hsplit with hcredit | ⟨reward, st₁, hcredit, -⟩
    · obtain rfl := creditEach_eq_error hcredit
      exact ⟨rfl, .inr ⟨p, hvet, hcredit⟩⟩
    · obtain ⟨o, st₂, hok⟩ := exists_processBatch_of_credited hserves hvet hcredit
      rw [hok] at h
      cases h
  · rintro ⟨rfl, hvet | ⟨p, hvet, hcredit⟩⟩
    · rw [processBatch_eq, lift_bind_eq_error]
      exact .inl ⟨hvet, rfl⟩
    · rw [processBatch_eq, lift_bind_eq_error]
      exact .inr ⟨p, hvet, bind_eq_error.2 (.inl hcredit)⟩

/-! ### Other deliveries -/

/-- A member with another delivery. -/
def Member.redirect (execute : Digest → InboundMessage → Action ω Unit) (m : Member ω) :
    Member ω :=
  { m with executor := m.executor.redirect execute }

variable {execute : Digest → InboundMessage → Action ω Unit}

theorem members_redirect (messages : List InboundMessage) (ds : List Digest)
    (receipts : List Receipt) (executors : List (Executor ω)) :
    members messages ds receipts (executors.map (Executor.redirect execute)) =
      (members messages ds receipts executors).map (Member.redirect execute) := by
  unfold members
  rw [List.zip_map_right, List.zip_map_right, List.zip_map_right, List.zipIdx_map, List.map_map,
    List.map_map]
  rfl

theorem filter_pending_redirect (ms : List (Member ω)) :
    (ms.map (Member.redirect execute)).filter Member.pending =
      (ms.filter Member.pending).map (Member.redirect execute) := by
  rw [List.filter_map]
  rfl

theorem totalValue_redirect (chain : Chain) (ms : List (Member ω)) :
    totalValue chain (ms.map (Member.redirect execute)) = totalValue chain ms := by
  unfold totalValue
  rw [List.foldlM_map]
  rfl

theorem forM_prepare_redirect (ms : List (Member ω)) :
    ((ms.map (Member.redirect execute)).forM fun m => m.executor.prepare m.message) =
      ms.forM fun m => m.executor.prepare m.message := by
  induction ms with
  | nil => rfl
  | cons m ms ih => exact congrArg (fun rest => m.executor.prepare m.message >>= fun _ => rest) ih

/-- The checks on a batch come out the same, whatever its deliveries do. -/
theorem vetBatch_redirect :
    vetBatch s (executors.map (Executor.redirect execute)) messages attestations st =
      (fun p => (p.1.map (Member.redirect execute), p.2)) <$>
        vetBatch s executors messages attestations st := by
  unfold vetBatch
  simp only [members_redirect, filter_pending_redirect, totalValue_redirect,
    forM_prepare_redirect, List.length_map, map_bind, map_pure]

/-- A batch is rejected for the same reason, whatever its deliveries do. -/
theorem rejected_redirect
    (h : vetBatch s executors messages attestations st = .error f ∨
      ∃ p, vetBatch s executors messages attestations st = .ok p ∧
        creditEach s (p.1.filter Member.pending).length st = .error f st) :
    vetBatch s (executors.map (Executor.redirect execute)) messages attestations st = .error f ∨
      ∃ p, vetBatch s (executors.map (Executor.redirect execute)) messages attestations st =
          .ok p ∧
        creditEach s (p.1.filter Member.pending).length st = .error f st := by
  rw [vetBatch_redirect]
  rcases h with h | ⟨p, h, hcredit⟩
  · exact .inl (by rw [h]; rfl)
  · refine .inr ⟨_, by rw [h]; rfl, ?_⟩
    rwa [filter_pending_redirect, List.length_map]

end Whole

/-! ## Every submission -/

/-- **A rejected submission leaves no trace.**  Let the receipts handed in serve the digests of
their messages.  If executing a message, or a batch, fails, then every record and the world
outside are as they were, and it fails in the same way whatever the deliveries would have done.
Once the submitter has been credited, it does not fail any more. -/
theorem rejected_leaves_no_trace :
    (∀ (ω : Type) (s : Submission) (executor : Executor ω) (m : InboundMessage)
        (attestations : List Attestation) (st : State ω),
      (∀ d, Digest.ofMessage s.bridge.hostChain s.bridge.identity m = .ok d →
        st.receipt.Serves d) →
      (∀ f st', process s executor m attestations st = .error f st' →
        st' = st ∧ ∀ execute,
          process s (executor.redirect execute) m attestations st = .error f st) ∧
      ∀ p reward roster, vet s executor m attestations st = .ok p →
        creditSubmitter s 1 st.roster = .ok reward roster →
          ∃ o st', process s executor m attestations st = .ok o st') ∧
    ∀ (ω : Type) (s : Submission) (executors : List (Executor ω))
        (messages : List InboundMessage) (attestations : List Attestation) (st : BatchState ω),
      (∀ p ∈ messages.zip st.receipts, ∀ d,
        Digest.ofMessage s.bridge.hostChain s.bridge.identity p.1 = .ok d → p.2.Serves d) →
      (∀ f st', processBatch s executors messages attestations st = .error f st' →
        st' = st ∧ ∀ execute, processBatch s (executors.map (Executor.redirect execute))
          messages attestations st = .error f st) ∧
      ∀ p reward st₁, vetBatch s executors messages attestations st = .ok p →
        creditEach s (p.1.filter Member.pending).length st = .ok reward st₁ →
          ∃ o st', processBatch s executors messages attestations st = .ok o st' := by
  refine ⟨fun ω s executor m attestations st hserves => ⟨fun f st' h => ?_, ?_⟩,
    fun ω s executors messages attestations st hserves => ⟨fun f st' h => ?_, ?_⟩⟩
  · obtain ⟨rfl, hwhy⟩ := (process_eq_error_iff hserves).1 h
    exact ⟨rfl, fun execute => (process_eq_error_iff hserves).2 ⟨rfl, hwhy⟩⟩
  · exact fun p reward roster hvet hcredit => exists_process_of_credited hserves hvet hcredit
  · obtain ⟨rfl, hwhy⟩ := (processBatch_eq_error_iff hserves).1 h
    exact ⟨rfl, fun execute => (processBatch_eq_error_iff hserves).2 ⟨rfl, rejected_redirect hwhy⟩⟩
  · exact fun p reward st₁ hvet hcredit => exists_processBatch_of_credited hserves hvet hcredit

/-- A relayer whose earnings have no room for the reward submits a message, alone and as a
batch: everything is in order until it is to be credited. -/
theorem rejected_at_the_credit :
    let s : Submission := {
      bridge := { fees := { relayReward := 3 } }, verify := fun _ _ _ => true
      submitter := .zero, liquidity := 0, now := 0 }
    let chain : Chain := { active := true, limits := { rateLimit := 1 } }
    let roster : Roster := {
      required := 1, active := 1, slots := [some { earned := .ofNat (2 ^ 64 - 3) }] }
    let executor : Executor Unit := ⟨fun _ => .ok (), fun _ _ => pure ()⟩
    let m : InboundMessage := { sender := [1] }
    let st : State Unit := ⟨chain, roster, {}, none, ()⟩
    let batch : BatchState Unit := ⟨chain, roster, [{}], ()⟩
    (∀ execute, process s (executor.redirect execute) m [{}] st =
        .error (.refused .arithmeticOverflow) st) ∧
      ∀ execute, processBatch s ([executor].map (Executor.redirect execute)) [m] [{}] batch =
        .error (.refused .arithmeticOverflow) batch := by
  intro s chain roster executor m st batch
  have hblank : ∀ d, Receipt.Serves d {} := fun d => ⟨.inl rfl, fun h => by cases h⟩
  have hone : process s executor m [{}] st = .error (.refused .arithmeticOverflow) st := rfl
  have hwhole : processBatch s [executor] [m] [{}] batch =
      .error (.refused .arithmeticOverflow) batch := rfl
  refine ⟨((rejected_leaves_no_trace.1 _ s executor m [{}] st ?_).1 _ _ hone).2,
    ((rejected_leaves_no_trace.2 _ s [executor] [m] [{}] batch ?_).1 _ _ hwhole).2⟩
  · exact fun d _ => hblank d
  · intro p hp d _
    rw [List.mem_singleton.1 hp]
    exact hblank d

end Inbound
end QuorumRelay
