import QuorumRelay.Proofs.Admission
import QuorumRelay.Proofs.Governance
import QuorumRelay.Proofs.Ledger.Effect
import QuorumRelay.Proofs.Outbound.Queue

/-!
# What becomes of a chain's record

Six instructions write the record of a chain: one creates it or replaces its
limits, one pauses and resumes it, two send, and two execute messages that
arrive.  `ChainStep` lists the ways in which one record can change, and
`Effect.chainStep` finds one of them in each of the twenty-four cases of an
effect.

## The highest nonce

A record keeps the highest nonce of the messages that were executed from its
chain.  A batch writes it once for each member that it executes, and passes over
those that were executed before; so the step is said with the list of nonces that
an instruction executes (`Instruction.executes`), which for a batch may be any
part of what was handed in.  A message counts as executed if its delivery was
begun.

## A blank record

A chain that is configured for the first time starts from the blank record, whose
identifier is 0.  No record in the registry has that identifier, because
configuring refuses it, so a record that is configured again is never taken for a
blank one, and keeps its pause.
-/

namespace QuorumRelay

/-! ## The highest of some nonces -/

namespace Nonce

variable {n highest : Nonce} {nonces more : List Nonce}

/-- A nonce is the highest of a list, or 0 if there is none. -/
def Highest (nonces : List Nonce) (highest : Nonce) : Prop :=
  (∀ n ∈ nonces, n ≤ highest) ∧ (highest ∈ nonces ∨ nonces = [] ∧ highest = 0)

theorem le_max_left (a b : Nonce) : a ≤ max a b := by
  rcases UInt64.le_total a b with h | h
  · rwa [max_of_le h]
  · rw [max_of_ge h]
    exact UInt64.le_refl a

theorem le_max_right (a b : Nonce) : b ≤ max a b := by
  rcases UInt64.le_total a b with h | h
  · rw [max_of_le h]
    exact UInt64.le_refl b
  · rwa [max_of_ge h]

theorem max_eq_or (a b : Nonce) : max a b = a ∨ max a b = b := by
  rcases UInt64.le_total a b with h | h
  · exact Or.inr (max_of_le h)
  · exact Or.inl (max_of_ge h)

theorem highest_nil : Highest [] 0 := ⟨nofun, Or.inr ⟨rfl, rfl⟩⟩

/-- The highest of one nonce more is the higher one. -/
theorem Highest.concat (h : Highest nonces highest) (n : Nonce) :
    Highest (nonces ++ [n]) (max highest n) := by
  constructor
  · intro k hk
    rcases List.mem_append.1 hk with hk | hk
    · exact UInt64.le_trans (h.1 k hk) (le_max_left ..)
    · rw [List.mem_singleton.1 hk]
      exact le_max_right ..
  · refine Or.inl (List.mem_append.2 ?_)
    rcases max_eq_or highest n with heq | heq
    · rw [heq]
      rcases h.2 with hmem | ⟨-, hzero⟩
      · exact Or.inl hmem
      · -- the higher one of 0 and a nonce is that nonce
        refine Or.inr (List.mem_singleton.2 ?_)
        have hle : n ≤ highest := heq ▸ le_max_right highest n
        rw [hzero] at hle ⊢
        exact (UInt64.le_zero_iff.1 hle).symm
    · rw [heq]
      exact Or.inr List.mem_cons_self

/-- **The highest of some nonces more** is found by going through them. -/
theorem Highest.append (h : Highest nonces highest) (more : List Nonce) :
    Highest (nonces ++ more) (more.foldl max highest) := by
  induction more generalizing nonces highest with
  | nil => rwa [List.append_nil]
  | cons n more ih =>
    rw [List.append_cons]
    exact ih (h.concat n)

theorem le_foldl_max (highest : Nonce) (nonces : List Nonce) : highest ≤ nonces.foldl max highest := by
  induction nonces generalizing highest with
  | nil => exact UInt64.le_refl highest
  | cons n nonces ih => exact UInt64.le_trans (le_max_left ..) (ih _)

end Nonce

/-! ## What a batch makes of the highest nonce -/

namespace Inbound

variable {ω : Type} {s : Submission} {executors : List (Executor ω)}
  {messages : List InboundMessage} {ds : List Digest} {attestations : List Attestation}
  {st st' : BatchState ω} {ms : List (Member ω)} {reward : Amount}

/-- Running through members goes through the nonces of those that are still to be executed. -/
theorem highest_of_mapM {results : List MemberResult}
    (h : ms.mapM (runMember reward) st = .ok results st') :
    st'.chain = { st.chain with
      highestInbound := ((ms.filter Member.pending).map fun m => m.message.sourceNonce).foldl max
        st.chain.highestInbound } := by
  induction ms generalizing st results with
  | nil =>
    obtain ⟨-, rfl⟩ := mapM_nil_eq_ok.1 h
    rfl
  | cons m ms ih =>
    obtain ⟨r, st₁, rest, hfirst, hrest, -⟩ := mapM_cons_eq_ok.1 h
    rw [ih hrest]
    cases hpending : m.pending with
    | false =>
      obtain ⟨rfl, -⟩ := (runMember_eq_ok_of_not_pending hpending).1 hfirst
      rw [List.filter_cons_of_neg (by simp [hpending])]
    | true =>
      obtain ⟨receipt, failure, world, -, -, rfl, -⟩ := (runMember_eq_ok_of_pending hpending).1 hfirst
      rw [List.filter_cons_of_pos hpending, Chain.recordInboundNonce_eq]
      rfl

/-- **What a batch leaves of the chain**: the window and the highest nonce are new. -/
theorem Batched.chain_eq {o : BatchOutcome}
    (h : Batched s executors messages attestations st ds o st') : ∃ window,
      st'.chain = { st.chain with
        inbound := window
        highestInbound :=
          (((members messages ds st.receipts executors).filter Member.pending).map
            fun m => m.message.sourceNonce).foldl max st.chain.highestInbound } := by
  obtain ⟨window, reward, st₁, -, hcredit, hrun⟩ := h.run
  have hchain := highest_of_mapM hrun
  rw [(creditEach_eq_ok hcredit).1] at hchain
  exact ⟨window, hchain⟩

end Inbound

/-! ## What is executed -/

/-- The digest of a message at the bridge on the books, if it has one. -/
def Books.digestOf? (books : Books) (m : InboundMessage) : Option Digest :=
  (books .bridge).bind fun b => (Digest.ofMessage b.hostChain b.identity m).toOption

/-- **The nonces of the messages from a chain that an instruction executes**: of those that it
hands in, the ones whose delivery was begun. -/
def Instruction.executes (i : Instruction) (before : Books) (attempts : List Digest)
    (n : ChainId) : List Nonce :=
  (i.messages.filter fun m => m.sourceChain = n ∧ (before.digestOf? m).any attempts.contains).map
    InboundMessage.sourceNonce

theorem Books.digestOf?_eq {books : Books} {b : Bridge} {m : InboundMessage} {d : Digest}
    (hb : books .bridge = some b) (hd : Digest.ofMessage b.hostChain b.identity m = .ok d) :
    books.digestOf? m = some d := by
  rw [digestOf?, hb, Option.bind_some, hd]
  rfl

/-- Nothing is executed by an instruction that begins no delivery. -/
theorem Instruction.executes_of_idle (i : Instruction) (before : Books) (n : ChainId) :
    i.executes before [] n = [] := by
  unfold executes
  rw [List.filter_eq_nil_iff.2 fun m _ => ?_, List.map_nil]
  cases before.digestOf? m <;> simp

/-- Nothing is executed from other chains than those of the messages handed in. -/
theorem Instruction.executes_of_ne {i : Instruction} {before : Books} {attempts : List Digest}
    {n : ChainId} (h : ∀ m ∈ i.messages, m.sourceChain ≠ n) : i.executes before attempts n = [] := by
  unfold executes
  rw [List.filter_eq_nil_iff.2 fun m hm => ?_, List.map_nil]
  simp [h m hm]

/-- Of a batch those members are executed that still were to be. -/
theorem Inbound.Batched.executes_eq {ω : Type} {s : Submission} {executors : List (Executor ω)}
    {messages : List InboundMessage} {ds : List Digest} {attestations : List Attestation}
    {st st' : BatchState ω} {o : BatchOutcome} {extras : List UInt8} {before : Books}
    (h : Batched s executors messages attestations st ds o st')
    (hb : before .bridge = some s.bridge) :
    Instruction.executes ⟨.processBatch, messages, attestations, extras⟩ before
        (executedDigests messages ds st.receipts executors) st.chain.id =
      ((members messages ds st.receipts executors).filter Member.pending).map
        fun m => m.message.sourceNonce := by
  have hlen := length_digests h.digests
  have hmessages := map_message_members hlen h.lengths.2 h.lengths.1
  have hnodup : ((members messages ds st.receipts executors).map Member.digest).Nodup := by
    rw [map_digest_members hlen h.lengths.2 h.lengths.1]
    exact h.distinct
  unfold Instruction.executes
  show (messages.filter _).map _ = _
  obtain ⟨attempts, hattempts⟩ : ∃ attempts,
    attempts = executedDigests messages ds st.receipts executors := ⟨_, rfl⟩
  rw [← hattempts]
  conv_lhs => rw [← hmessages]
  rw [List.filter_map, List.map_map]
  congr 1
  refine List.filter_congr fun m hm => ?_
  have hdigest := Books.digestOf?_eq hb (h.of_member hm).1
  have hchain : m.message.sourceChain = st.chain.id :=
    h.chains m.message (hmessages ▸ List.mem_map_of_mem hm)
  -- digests are distinct, so a digest that is executed is that of a pending member
  have hpending : m.digest ∈ attempts ↔ m.pending = true := by
    rw [hattempts]
    constructor
    · intro hd
      obtain ⟨m', hm', heq⟩ := List.mem_map.1 hd
      obtain ⟨hmem, hpending⟩ := List.mem_filter.1 hm'
      rwa [List.inj_on_of_nodup_map hnodup hmem hm heq] at hpending
    · exact fun hpending => List.mem_map_of_mem (List.mem_filter.2 ⟨hm, hpending⟩)
  simp [hdigest, hchain, hpending]

/-! ## Steps -/

/-- **What an instruction makes of the record of one chain**, if it executes these nonces. -/
inductive ChainStep (before after : Books) (nonces : List Nonce) (n : ChainId) : Prop
  | kept (idle : nonces = []) (same : after (.chain n) = before (.chain n))
  | configured (c : Chain) (limits : Chain.Limits) (idle : nonces = [])
      (held : before.Holds (.chain n) c) (positive : 0 < n) (checked : limits.check = .ok ())
      (stored : after (.chain n) = some { c with
        id := n, limits, active := c.active || c.id == 0, bump := derivedBump })
  | switched (c : Chain) (active : Bool) (idle : nonces = [])
      (held : before (.chain n) = some c) (stored : after (.chain n) = some { c with active })
  | sent (c : Chain) (window : RateWindow) (idle : nonces = [])
      (held : before (.chain n) = some c) (unpaused : c.active = true)
      (stored : after (.chain n) = some { c with outbound := window })
  | received (c : Chain) (window : RateWindow) (held : before (.chain n) = some c)
      (unpaused : c.active = true)
      (stored : after (.chain n) = some { c with
        inbound := window, highestInbound := nonces.foldl max c.highestInbound })

section

variable {before after : Books} {nonces past : List Nonce} {n : ChainId} {c : Chain}

/-- **Every chain in the registry is one that was configured**: under its own identifier, which is
not 0, and with limits that passed the check. -/
def Books.Registered (books : Books) : Prop :=
  ∀ n c, books (.chain n) = some c → c.id = n ∧ 0 < n ∧ c.limits.check = .ok ()

/-- The record of a chain holds the highest of these nonces; without a record there are none. -/
def Books.Counts (books : Books) (nonces : List Nonce) (n : ChainId) : Prop :=
  match books (.chain n) with
  | some c => Nonce.Highest nonces c.highestInbound
  | none => nonces = []

theorem Books.counts_of_some {books : Books} (h : books (.chain n) = some c) :
    books.Counts nonces n ↔ Nonce.Highest nonces c.highestInbound := by
  rw [Counts, h]

theorem Books.counts_of_none {books : Books} (h : books (.chain n) = none) :
    books.Counts nonces n ↔ nonces = [] := by
  rw [Counts, h]

namespace ChainStep

/-- **The registry stays one of configured chains.** -/
theorem registered (h : ∀ n, ∃ nonces, ChainStep before after nonces n)
    (hreg : before.Registered) : after.Registered := by
  intro n c hc
  obtain ⟨nonces, hstep⟩ := h n
  cases hstep with
  | kept idle same => exact hreg n c (same ▸ hc)
  | configured c₀ limits idle held positive checked stored =>
    rw [stored] at hc
    cases hc
    exact ⟨rfl, positive, checked⟩
  | switched c₀ active idle held stored =>
    rw [stored] at hc
    cases hc
    exact hreg n c₀ held
  | sent c₀ window idle held unpaused stored =>
    rw [stored] at hc
    cases hc
    exact hreg n c₀ held
  | received c₀ window held unpaused stored =>
    rw [stored] at hc
    cases hc
    exact hreg n c₀ held

/-- **The record goes on holding the highest nonce.** -/
theorem counts (h : ChainStep before after nonces n) (hcounts : before.Counts past n) :
    after.Counts (past ++ nonces) n := by
  cases h with
  | kept idle same =>
    rw [idle, List.append_nil, Books.Counts, same]
    exact hcounts
  | configured c limits idle held positive checked stored =>
    rw [idle, List.append_nil, Books.counts_of_some stored]
    rcases held with held | ⟨hnone, rfl⟩
    · exact (Books.counts_of_some held).1 hcounts
    · rw [(Books.counts_of_none hnone).1 hcounts]
      exact Nonce.highest_nil
  | switched c active idle held stored | sent c window idle held unpaused stored =>
    rw [idle, List.append_nil, Books.counts_of_some stored]
    exact (Books.counts_of_some held).1 hcounts
  | received c window held unpaused stored =>
    rw [Books.counts_of_some stored]
    exact ((Books.counts_of_some held).1 hcounts).append nonces

/-- **A record stays, and its highest nonce is never lowered.** -/
theorem exists_le (h : ChainStep before after nonces n) (hc : before (.chain n) = some c) :
    ∃ c', after (.chain n) = some c' ∧ c.highestInbound ≤ c'.highestInbound := by
  cases h with
  | kept idle same => exact ⟨c, same.trans hc, UInt64.le_refl _⟩
  | configured c₀ limits idle held positive checked stored =>
    rcases held with held | ⟨hnone, rfl⟩
    · obtain rfl : c₀ = c := by simpa [hc] using held.symm
      exact ⟨_, stored, UInt64.le_refl _⟩
    · rw [hnone] at hc
      cases hc
  | switched c₀ active idle held stored | sent c₀ window idle held unpaused stored =>
    obtain rfl : c₀ = c := by simpa [hc] using held.symm
    exact ⟨_, stored, UInt64.le_refl _⟩
  | received c₀ window held unpaused stored =>
    obtain rfl : c₀ = c := by simpa [hc] using held.symm
    exact ⟨_, stored, Nonce.le_foldl_max ..⟩

/-- **Nothing is executed from a paused chain.** -/
theorem idle_of_paused (h : ChainStep before after nonces n) (hc : before (.chain n) = some c)
    (hpaused : c.active = false) : nonces = [] := by
  cases h with
  | kept idle | configured _ _ idle | switched _ _ idle | sent _ _ idle => exact idle
  | received c₀ window held unpaused stored =>
    rw [hc] at held
    cases held
    rw [hpaused] at unpaused
    cases unpaused

end ChainStep
end

/-! ## All instructions -/

variable {env : Environment} {A : List Passed} {spendable : Amount} {before after : Books}
  {i : Instruction} {t : Trace}

/-- Where one record is written, the other chains are left alone. -/
theorem ChainStep.of_written (n : ChainId) {k : ChainId} {attempts : List Digest}
    (h : ChainStep before after (i.executes before attempts k) k)
    (hothers : ∀ id, id ≠ k → after (.chain id) = before (.chain id))
    (hfrom : ∀ m ∈ i.messages, m.sourceChain = k) :
    ChainStep before after (i.executes before attempts n) n := by
  by_cases hn : n = k
  · rw [hn]
    exact h
  · refine .kept (Instruction.executes_of_ne fun m hm heq => hn ?_) (hothers n hn)
    rw [← heq, hfrom m hm]

/-- A message that is queued moves the window of its own chain. -/
theorem ChainStep.of_queued (n : ChainId) {sender : Key} {q : SendRequest} {now : Slot}
    {o o' : Outbox} {m : OutboundMessage} (h : Outbox.Queued sender q now o m o')
    (hidle : i.messages = []) (hheld : before (.chain q.destinationChain) = some o.chain)
    (hstored : after (.chain q.destinationChain) = some o'.chain)
    (hothers : ∀ id, id ≠ q.destinationChain → after (.chain id) = before (.chain id)) :
    ChainStep before after (i.executes before [] n) n := by
  obtain ⟨window, -, hchain⟩ := h.window
  refine .of_written n (.sent o.chain window (Instruction.executes_of_idle ..) hheld h.active ?_)
    hothers (by simp [hidle])
  rw [hstored, hchain]

/-- **Every instruction leaves the record of a chain alone, or changes it in one of these ways.** -/
theorem Effect.chainStep (h : Effect env A spendable before i after t) (n : ChainId) :
    ChainStep before after (i.executes before t.attempts n) n := by
  have hplace : ∀ {k id : ChainId}, k ≠ id → Place.chain k ≠ .chain id :=
    fun hk heq => hk (Place.chain.inj heq)
  cases h with
  | configureChain signed bridge chain step =>
    rename_i id limits authority b c c'
    obtain ⟨-, -, hconfigure⟩ := Governance.configureChain_eq_ok step
    obtain ⟨hpos, hchecked, rfl⟩ := Chain.configure_eq_ok hconfigure
    exact .of_written n (.configured c limits (Instruction.executes_of_idle ..) chain hpos hchecked
      (Books.put_self ..)) (fun k hk => Books.put_of_ne _ _ (hplace hk)) nofun
  | setChainActive signed bridge chain step =>
    rename_i id active authority b c c'
    obtain ⟨-, rfl⟩ := Governance.setChainActive_eq_ok step
    exact .of_written n (.switched c active (Instruction.executes_of_idle ..) chain
      (Books.put_self ..)) (fun k hk => Books.put_of_ne _ _ (hplace hk)) nofun
  | sendMessage signed bridge chain vault absent step owes =>
    rename_i q sender b c v m o owed
    exact .of_queued n (Outbox.queued_of_queue step) rfl chain (by simp [Books.put_of_ne])
      fun k hk => by simp [Books.put_of_ne, hplace hk]
  | sendSponsored signed bridge chain sponsor vault absent step charged =>
    rename_i q sender b c v s s' m o
    exact .of_queued n (Outbox.queued_of_queue step) rfl chain (by simp [Books.put_of_ne])
      fun k hk => by simp [Books.put_of_ne, hplace hk]
  | processMessage given signed bridge chain roster receiptHeld vault cursorHeld named own evidence
      liquid step payment =>
    rename_i digest m attestations submitter b c r receipt v cursor proven liquidity executor
      world o s payments
    obtain ⟨window, -, hchain⟩ := step.window
    rw [Chain.recordInboundNonce_eq] at hchain
    have hexecutes : Instruction.executes ⟨.processMessage, digest, m, attestations⟩ before
        [digest] m.sourceChain = [m.sourceNonce] := by
      simp [Instruction.executes, Instruction.messages, Books.digestOf?_eq bridge own]
    refine .of_written n (k := m.sourceChain) (.received c window chain step.active ?_)
      (fun k hk => ?_) (fun m' hm' => by rw [List.mem_singleton.1 hm'])
    · rw [Books.move_of_ne (q := .chain m.sourceChain) nofun, hexecutes]
      simp [Books.put_of_ne, hchain]
    · rw [Books.move_of_ne (q := .chain k) nofun]
      simp [Books.put_of_ne, hplace hk]
  | processBatch given signed bridge chain roster vault receiptsHeld evidence liquid step payment =>
    rename_i messages attestations extras submitter b c r v receipts ds proven liquidity executors
      world o s payments
    obtain ⟨window, hchain⟩ := step.chain_eq
    refine .of_written n (k := c.id) (.received c window chain step.active ?_) (fun k hk => ?_)
      step.chains
    · rw [step.executes_eq bridge]
      simp [Books.put_of_ne, hchain]
    · simp [Books.put_of_ne, Books.close_of_ne, hplace hk]
  | _ => exact .kept (Instruction.executes_of_idle ..) (by simp [Books.put_of_ne])

/-- **Configuring a chain that is there leaves its traffic**: both windows, the highest nonce, and
whether it is paused. -/
theorem Effect.traffic_of_configureChain {id : ChainId} {limits : Chain.Limits}
    (h : Effect env A spendable before ⟨.configureChain, id, limits⟩ after t)
    (hreg : before.Registered) {c : Chain} (hc : before (.chain n) = some c) :
    ∃ c', after (.chain n) = some c' ∧ c'.outbound = c.outbound ∧ c'.inbound = c.inbound ∧
      c'.highestInbound = c.highestInbound ∧ c'.active = c.active := by
  cases h with
  | configureChain signed bridge chain step =>
    rename_i authority b c₀ c'
    by_cases hn : n = id
    · subst hn
      obtain rfl : c₀ = c := by
        rcases chain with chain | ⟨hnone, -⟩
        · simpa [hc] using chain.symm
        · rw [hnone] at hc
          cases hc
      obtain ⟨-, -, hconfigure⟩ := Governance.configureChain_eq_ok step
      obtain ⟨hpos, -, rfl⟩ := Chain.configure_eq_ok hconfigure
      have hid : (c₀.id == 0) = false := by
        rw [(hreg n c₀ hc).1, beq_eq_false_iff_ne]
        rintro rfl
        exact UInt32.lt_irrefl _ hpos
      exact ⟨_, Books.put_self .., rfl, rfl, rfl, by simp [hid]⟩
    · have hplace : Place.chain n ≠ .chain id := fun heq => hn (Place.chain.inj heq)
      exact ⟨c, (Books.put_of_ne _ _ hplace).trans hc, rfl, rfl, rfl, rfl⟩

/-- A request is queued on a chain that is open and takes messages of its size. -/
theorem Outbox.Queued.unpaused {sender : Key} {q : SendRequest} {now : Slot} {o o' : Outbox}
    {m : OutboundMessage} (h : Outbox.Queued sender q now o m o') (bump : UInt8)
    (hchain : before (.chain q.destinationChain) = some o.chain) :
    ∃ c, before (.chain ({ m with bump } : OutboundMessage).destinationChain) = some c ∧
      c.active = true ∧
      ({ m with bump } : OutboundMessage).payload.length ≤ c.limits.maxMessageBytes.toNat := by
  have hlimits := h.limits
  unfold Chain.checkLimits at hlimits
  simp only [except_bind_eq_ok, require_eq_ok, exists_const] at hlimits
  rw [h.message]
  exact ⟨o.chain, hchain, h.active, hlimits.1⟩

/-- **A message is queued on a chain that is open, and within its limit.** -/
theorem Effect.queued_open (h : Effect env A spendable before i after t) {k : Nonce}
    {m : OutboundMessage} (hnew : before (.outbound k) = none)
    (hm : after (.outbound k) = some m) : ∃ c, before (.chain m.destinationChain) = some c ∧
      c.active = true ∧ m.payload.length ≤ c.limits.maxMessageBytes.toNat := by
  -- a message that was there before is at another place
  have hplace : ∀ {nonce m₀}, before (.outbound nonce) = some m₀ →
      Place.outbound k ≠ .outbound nonce := by
    rintro nonce m₀ hheld ⟨⟩
    rw [hnew] at hheld
    cases hheld
  cases h with
  | sendMessage signed bridge chain vault absent step owes =>
    rename_i q sender b c v m' o owed
    by_cases hk : k = b.nextNonce
    · subst hk
      rw [Books.put_self] at hm
      cases hm
      exact (Outbox.queued_of_queue step).unpaused derivedBump chain
    · have hplace : Place.outbound k ≠ .outbound b.nextNonce :=
        fun heq => hk (Place.outbound.inj heq)
      simp [Books.put_of_ne, hplace, hnew] at hm
  | sendSponsored signed bridge chain sponsor vault absent step charged =>
    rename_i q sender b c v s s' m' o
    by_cases hk : k = b.nextNonce
    · subst hk
      rw [Books.put_of_ne _ _ (by simp), Books.put_self] at hm
      cases hm
      exact (Outbox.queued_of_queue step).unpaused derivedBump chain
    · have hplace : Place.outbound k ≠ .outbound b.nextNonce :=
        fun heq => hk (Place.outbound.inj heq)
      simp [Books.put_of_ne, hplace, hnew] at hm
  | markRelayed signed roster message step => simp [Books.put_of_ne, hplace message, hnew] at hm
  | confirmDelivery bridge roster message evidence step =>
    simp [Books.put_of_ne, hplace message, hnew] at hm
  | reclaim signed bridge message vault step =>
    simp [Books.put_of_ne, hplace message, hnew] at hm
  | processMessage given signed bridge =>
    rw [Books.move_of_ne (q := .outbound k) nofun] at hm
    simp [Books.put_of_ne, hnew] at hm
  | processBatch given => simp [Books.put_of_ne, Books.close_of_ne, hnew] at hm
  | _ => simp [Books.put_of_ne, hnew] at hm

end QuorumRelay
