import QuorumRelay.Proofs.AppendOnly
import QuorumRelay.Proofs.Codec.Instructions
import QuorumRelay.Proofs.Ledger.Chains

/-!
# The registry of chains over whole runs

A chain has one record, which its governor configures and which all traffic in
both directions reads and writes.  The limits in it were checked once, when they
were chosen; every message later is compared with what stands there.  So what
the check asks for has to stay true of the record for as long as it exists, also
where other parts of it change in between.

`Ledger.registry_of_run` is about every run from a ledger on which the program
owns nothing.  It says what every record in the registry is like, what can become
of it next, and that the highest nonce in it is the highest of all messages that
the run has executed from the chain.

## Payloads

The overall maximum is nowhere compared with a payload.  It is the check on
limits that keeps a chain's own maximum below it, and a message is compared with
that; once it is in the log its payload does not change.
-/

namespace QuorumRelay

/-- A move runs the instruction that configures a chain. -/
def Move.Configures (move : Move) : Prop :=
  ∃ env data accounts id limits, move = .run env data accounts ∧
    Instruction.decode data = .ok ⟨.configureChain, id, limits⟩

/-- No payload in the log is above the overall maximum. -/
def Books.Short (books : Books) : Prop :=
  ∀ k m, books (.outbound k) = some m → m.payload.length ≤ maxPayloadBytes

namespace Ledger

variable {l : Ledger} {move : Move} {ms : List Move} {n : ChainId} {c : Chain} {k : Nonce}
  {m : OutboundMessage} {past : List Nonce}

/-! ## Moves -/

/-- The nonces of the messages from a chain that a move executes. -/
def executes (l : Ledger) (n : ChainId) : Move → List Nonce
  | .run env data accounts =>
    match Instruction.decode data with
    | .ok i => i.executes l.books (l.run env data accounts).attempts n
    | .error _ => []
  | .outside _ => []

/-- The nonces of the messages from a chain that a row of moves executes, in order. -/
def executed (l : Ledger) (n : ChainId) : List Move → List Nonce
  | [] => []
  | move :: ms => l.executes n move ++ (l.move move).executed n ms

theorem executes_of_idle {env : Environment} {data : List UInt8} {accounts : List Passed}
    (h : (l.run env data accounts).attempts = []) : l.executes n (.run env data accounts) = [] := by
  simp only [executes, h]
  split
  · exact Instruction.executes_of_idle ..
  · rfl

theorem executes_of_decode {env : Environment} {data : List UInt8} {accounts : List Passed}
    {i : Instruction} (h : Instruction.decode data = .ok i) :
    l.executes n (.run env data accounts) =
      i.executes l.books (l.run env data accounts).attempts n := by
  simp only [executes, h]

/-- Nothing is executed from a chain by an instruction that hands in no message from it. -/
theorem executes_of_ne {env : Environment} {data : List UInt8} {accounts : List Passed}
    {i : Instruction} (h : Instruction.decode data = .ok i)
    (hne : ∀ m ∈ i.messages, m.sourceChain ≠ n) : l.executes n (.run env data accounts) = [] :=
  (executes_of_decode h).trans (Instruction.executes_of_ne hne)

/-- All messages that an instruction hands in are executed where it begins the deliveries of all. -/
theorem executes_of_begins {env : Environment} {data : List UInt8} {accounts : List Passed}
    {i : Instruction} (h : Instruction.decode data = .ok i)
    (hall : ∀ m ∈ i.messages, m.sourceChain = n ∧
      ∃ d, l.books.digestOf? m = some d ∧ d ∈ l.begins (.run env data accounts)) :
    l.executes n (.run env data accounts) = i.messages.map InboundMessage.sourceNonce := by
  rw [executes_of_decode h, Instruction.executes, List.filter_eq_self.2 fun m hm => ?_]
  obtain ⟨hsource, d, hdigest, hbegun⟩ := hall m hm
  rw [begins_run] at hbegun
  simp [hsource, hdigest, hbegun]

/-- **Every move is a step of each chain.** -/
theorem Sound.chainStep (hs : l.Sound) (hm : move.Allowed) (n : ChainId) :
    ChainStep l.books (l.move move).books (l.executes n move) n := by
  cases move with
  | outside change => exact .kept rfl (congrFun (hm l).keeps.books _)
  | run env data accounts =>
    show ChainStep l.books (l.run env data accounts).ledger.books _ n
    rcases hs.carriesOut hm with ⟨f, notices, hrun⟩ | ⟨i, t, hrun⟩
    · rw [executes_of_idle (by rw [hrun]), hrun]
      exact .kept rfl rfl
    · rw [executes_of_decode hrun.decoded, hrun.attempts]
      exact hrun.effect.chainStep n

theorem Sound.registered_move (hs : l.Sound) (hm : move.Allowed) (hreg : l.books.Registered) :
    (l.move move).books.Registered :=
  ChainStep.registered (fun n => ⟨_, hs.chainStep hm n⟩) hreg

/-- **A chain that is configured again keeps its traffic.** -/
theorem Sound.traffic_of_configures (hs : l.Sound) (hm : move.Allowed)
    (hreg : l.books.Registered) (hconfigures : move.Configures)
    (hc : l.books (.chain n) = some c) :
    ∃ c', (l.move move).books (.chain n) = some c' ∧ c'.outbound = c.outbound ∧
      c'.inbound = c.inbound ∧ c'.highestInbound = c.highestInbound ∧ c'.active = c.active := by
  obtain ⟨env, data, accounts, id, limits, rfl, hdecode⟩ := hconfigures
  show ∃ c', (l.run env data accounts).ledger.books (.chain n) = some c' ∧ _
  rcases hs.carriesOut hm with ⟨f, notices, hrun⟩ | ⟨i, t, hrun⟩
  · rw [hrun]
    exact ⟨c, hc, rfl, rfl, rfl, rfl⟩
  · obtain rfl : ⟨.configureChain, id, limits⟩ = i :=
      Except.ok.inj (hdecode.symm.trans hrun.decoded)
    exact hrun.effect.traffic_of_configureChain hreg hc

/-- **A message that was not there before is sent to an open chain**, within its limit. -/
theorem Sound.queued_open (hs : l.Sound) (hm : move.Allowed) (hnew : l.books (.outbound k) = none)
    (h : (l.move move).books (.outbound k) = some m) :
    ∃ c, l.books (.chain m.destinationChain) = some c ∧ c.active = true ∧
      m.payload.length ≤ c.limits.maxMessageBytes.toNat := by
  cases move with
  | outside change =>
    have hsame := congrFun (hm l).keeps.books (.outbound k)
    rw [show (l.move (.outside change)).books (.outbound k) = _ from hsame, hnew] at h
    cases h
  | run env data accounts =>
    have h : (l.run env data accounts).ledger.books (.outbound k) = some m := h
    rcases hs.carriesOut hm with ⟨f, notices, hrun⟩ | ⟨i, t, hrun⟩
    · rw [hrun, hnew] at h
      cases h
    · exact hrun.effect.queued_open hnew h

/-- A message was there before a move, up to its status, or it was sent to an open chain. -/
theorem Sound.message_origin (hs : l.Sound) (hm : move.Allowed) (hdense : l.books.Dense)
    (h : (l.move move).books (.outbound k) = some m) :
    (∃ m₀, l.books (.outbound k) = some m₀ ∧ m = { m₀ with status := m.status }) ∨
      ∃ c, l.books (.chain m.destinationChain) = some c ∧ c.active = true ∧
        m.payload.length ≤ c.limits.maxMessageBytes.toNat := by
  cases hbefore : l.books (.outbound k) with
  | none => exact Or.inr (hs.queued_open hm hbefore h)
  | some m₀ =>
    obtain ⟨status, hafter, -⟩ := (hs.logStep hm).exists_status hdense hbefore
    rw [h] at hafter
    cases hafter
    exact Or.inl ⟨m₀, rfl, rfl⟩

theorem Sound.short_move (hs : l.Sound) (hm : move.Allowed) (hdense : l.books.Dense)
    (hreg : l.books.Registered) (hshort : l.books.Short) : (l.move move).books.Short := by
  intro k m h
  rcases hs.message_origin hm hdense h with ⟨m₀, hm₀, heq⟩ | ⟨c, hc, -, hle⟩
  · rw [heq]
    exact hshort k m₀ hm₀
  · obtain ⟨-, -, hchecked⟩ := hreg _ c hc
    exact Nat.le_trans hle (Chain.Limits.check_eq_ok.1 hchecked).2.1.2

/-! ## Runs -/

theorem executed_append (l : Ledger) (ms ms' : List Move) :
    l.executed n (ms ++ ms') = l.executed n ms ++ (l.moves ms).executed n ms' :=
  collected_append (f := fun l => l.executed n) (fun _ => rfl) (fun _ _ _ => rfl) l ms ms'

/-- **Along a run the registry stays one of configured chains, and payloads stay short.** -/
theorem Sound.registered_moves (hs : l.Sound) (h : ∀ m ∈ ms, m.Allowed) (hdense : l.books.Dense)
    (hreg : l.books.Registered) (hshort : l.books.Short) :
    (l.moves ms).books.Registered ∧ (l.moves ms).books.Short := by
  induction ms generalizing l with
  | nil => exact ⟨hreg, hshort⟩
  | cons move ms ih =>
    rw [List.forall_mem_cons] at h
    exact ih (hs.move h.1) h.2 ((hs.logStep h.1).dense hdense) (hs.registered_move h.1 hreg)
      (hs.short_move h.1 hdense hreg hshort)

/-- **Along a run the record holds the highest nonce that was executed.** -/
theorem Sound.counts_moves (hs : l.Sound) (h : ∀ m ∈ ms, m.Allowed)
    (hcounts : l.books.Counts past n) :
    (l.moves ms).books.Counts (past ++ l.executed n ms) n := by
  induction ms generalizing l past with
  | nil =>
    rw [executed, List.append_nil]
    exact hcounts
  | cons move ms ih =>
    rw [List.forall_mem_cons] at h
    rw [executed, ← List.append_assoc]
    exact ih (hs.move h.1) h.2 ((hs.chainStep h.1 n).counts hcounts)

/-- **A chain stays in the registry, and its highest nonce is never lowered.** -/
theorem Sound.exists_le_chain (hs : l.Sound) (h : ∀ m ∈ ms, m.Allowed)
    (hc : l.books (.chain n) = some c) :
    ∃ c', (l.moves ms).books (.chain n) = some c' ∧ c.highestInbound ≤ c'.highestInbound := by
  induction ms generalizing l c with
  | nil => exact ⟨c, hc, UInt64.le_refl _⟩
  | cons move ms ih =>
    rw [List.forall_mem_cons] at h
    obtain ⟨c₁, hc₁, hle₁⟩ := (hs.chainStep h.1 n).exists_le hc
    obtain ⟨c₂, hc₂, hle₂⟩ := ih (hs.move h.1) h.2 hc₁
    exact ⟨c₂, hc₂, UInt64.le_trans hle₁ hle₂⟩

theorem Fresh.registered (h : l.Fresh) : l.books.Registered ∧ l.books.Short := by
  constructor
  · intro n c hc
    rw [h.books_eq_none] at hc
    cases hc
  · intro k m hm
    rw [h.books_eq_none] at hm
    cases hm

/-- A chain of the registry is the one that its account is for. -/
theorem chain_of_load (hk : l.Kept) (hreg : l.books.Registered) {id : AccountId}
    (h : Chain.record.load (l.account id) = .ok c) :
    id = .chain c.id ∧ l.books (.chain c.id) = some c := by
  obtain ⟨n, rfl⟩ := hk.exists_chain_of_load h
  have hheld : l.books (.chain n) = some c := entry_of_load (p := .chain n) h
  obtain ⟨rfl, -⟩ := hreg n c hheld
  exact ⟨rfl, hheld⟩

/-- **The registry of chains, over any run.**  Every record of a chain is at the account of its own
identifier, which is not 0, and its limits let some message pass and none above the overall maximum.
The highest nonce in it is that of all messages which the run has executed from the chain, by
themselves or in batches; without a record there were none.  Whatever is done next, the record stays
where it is and its highest nonce is not lowered; an instruction that configures a chain leaves both
windows, the highest nonce and the pause as they were; and in a move that starts with the chain
paused, nothing from it is executed and nothing is queued for it.  No message that is ever in the
log has a payload above the overall maximum. -/
theorem registry_of_run {l : Ledger} (hfresh : l.Fresh) {past : List Move}
    (hpast : ∀ move ∈ past, move.Allowed) :
    (∀ id c, Chain.record.load ((l.moves past).account id) = .ok c →
      id = .chain c.id ∧ 0 < c.id ∧
      (1 ≤ c.limits.confirmations ∧
        (0 < c.limits.maxMessageBytes ∧ c.limits.maxMessageBytes.toNat ≤ 1024) ∧
        0 < c.limits.feeMultiplier ∧ 0 < c.limits.rateLimit) ∧
      Nonce.Highest (l.executed c.id past) c.highestInbound ∧
      (∀ move : Move, move.Allowed →
        (move.Configures → ∃ c', Chain.record.load (((l.moves past).move move).account id) = .ok c' ∧
          c'.outbound = c.outbound ∧ c'.inbound = c.inbound ∧
          c'.highestInbound = c.highestInbound ∧ c'.active = c.active) ∧
        (c.active = false → (l.moves past).executes c.id move = [] ∧
          ∀ k m, OutboundMessage.record.load (((l.moves past).move move).account k) = .ok m →
            m.destinationChain = c.id →
            ∃ m₀, OutboundMessage.record.load ((l.moves past).account k) = .ok m₀ ∧
              m = { m₀ with status := m.status })) ∧
      ∀ later : List Move, (∀ move ∈ later, move.Allowed) →
        ∃ c', Chain.record.load (((l.moves past).moves later).account id) = .ok c' ∧
          c'.id = c.id ∧ c.highestInbound ≤ c'.highestInbound) ∧
    (∀ n, (∀ c, Chain.record.load ((l.moves past).account (.chain n)) ≠ .ok c) →
      l.executed n past = []) ∧
    ∀ id m, OutboundMessage.record.load ((l.moves past).account id) = .ok m →
      m.payload.length ≤ 1024 := by
  have hs := hfresh.sound.moves hpast
  obtain ⟨hreg₀, hshort₀⟩ := hfresh.registered
  have hdense := (hfresh.sound.dense_moves hpast hfresh.dense).1
  obtain ⟨hreg, hshort⟩ := hfresh.sound.registered_moves hpast hfresh.dense hreg₀ hshort₀
  have hcounts : ∀ n, (l.moves past).books.Counts (l.executed n past) n := fun n =>
    hfresh.sound.counts_moves hpast ((Books.counts_of_none (hfresh.books_eq_none _)).2 rfl)
  refine ⟨fun id c hc => ?_, fun n hnone => ?_, fun id m hm => ?_⟩
  · obtain ⟨rfl, hheld⟩ := chain_of_load hs.kept hreg hc
    obtain ⟨-, hpos, hchecked⟩ := hreg _ c hheld
    refine ⟨rfl, hpos, Chain.Limits.check_eq_ok.1 hchecked,
      (Books.counts_of_some hheld).1 (hcounts c.id), fun move hmove => ⟨fun hconfigures => ?_,
        fun hpaused => ⟨(hs.chainStep hmove c.id).idle_of_paused hheld hpaused, ?_⟩⟩,
      fun later hlater => ?_⟩
    · obtain ⟨c', hc', htraffic⟩ := hs.traffic_of_configures hmove hreg hconfigures hheld
      exact ⟨c', load_chain hc', htraffic⟩
    · intro k m hm hdestination
      obtain ⟨n, rfl⟩ := (hs.move hmove).kept.exists_nonce_of_load hm
      rcases hs.message_origin hmove hdense (entry_of_load (p := .outbound n) hm) with
        ⟨m₀, hm₀, heq⟩ | ⟨c₀, hc₀, hopen, -⟩
      · exact ⟨m₀, load_outbound hm₀, heq⟩
      · -- a message that is new went to an open chain, and this one is paused
        rw [hdestination, hheld] at hc₀
        cases hc₀
        rw [hpaused] at hopen
        cases hopen
    · obtain ⟨c', hc', hle⟩ := hs.exists_le_chain hlater hheld
      have hreg' := (hs.registered_moves hlater hdense hreg hshort).1
      exact ⟨c', load_chain hc', (hreg' _ c' hc').1, hle⟩
  · refine (Books.counts_of_none ?_).1 (hcounts n)
    cases hc : (l.moves past).books (.chain n) with
    | none => rfl
    | some c => exact absurd (load_chain hc) (hnone c)
  · obtain ⟨n, rfl⟩ := hs.kept.exists_nonce_of_load hm
    exact hshort n m (entry_of_load (p := .outbound n) hm)

end Ledger

/-! ## A pause after a batch -/

/-- The founder pauses the chain. -/
def Move.pausing : Move := byFounder ⟨.setChainActive, 2, false⟩ [.bridge, .chain 2, founder]

/-- Two messages are executed, and then their chain is paused. -/
def Move.lastBatch : List Move := readying ++ [delivering, pausing]

theorem Move.allowed_lastBatch : ∀ move ∈ lastBatch, move.Allowed :=
  List.forall_mem_append.2 ⟨allowed_readying, List.forall_mem_cons.2
    ⟨allowed_delivering, List.forall_mem_singleton.2 (allowed_byFounder _ _)⟩⟩

theorem Move.configures_connecting : connecting.Configures :=
  ⟨_, _, _, _, _, rfl, Instruction.decode_encode _ trivial⟩

namespace Ledger

/-- The digests of the two messages. -/
theorem digestOf?_readying :
    Move.twoMessages.map (hosting.moves Move.readying).books.digestOf? =
      [some Move.firstDigest, some Move.secondDigest] := by
  simp only [Move.readying, Move.founding, Move.connecting, Move.registering,
    Move.openingReceipt, moves_cons, moves_nil]
  repeat rw [move_byFounder_exec]
  any_goals exact trivial
  -- down to the hashes, which are computed by rows
  delta Instruction.exec Exec.createBridge Books.digestOf? Digest.ofMessage Digest.messagePreimage
    Move.twoMessages Move.messageTo Address.ofKey
  rw [Keccak.keccak256_eq]
  decide +kernel

/-- The record of the chain after the batch and the pause. -/
theorem chain_lastBatch :
    ((hosting.moves Move.lastBatch).books (.chain 2)).map (fun c => (c.id, c.active)) =
      some (2, false) := by
  simp only [Move.lastBatch, Move.readying, Move.founding, Move.connecting,
    Move.registering, Move.openingReceipt, Move.pausing, Move.delivering, List.cons_append,
    List.nil_append, moves_cons, moves_nil]
  repeat rw [move_byFounder_exec]
  rw [move_run_exec _ _ _ _ Move.fits_twoMessages]
  any_goals exact trivial
  -- down to the hashes, which are computed by rows
  delta Instruction.exec Exec.createBridge Exec.processBatch Exec.takeMembers Exec.takeMembers._f
    Inbound.processBatch Inbound.digests Route.executor Route.prepare Digest.ofMessage
    Digest.messagePreimage Digest.ofBatch Move.twoMessages Move.messageTo Address.ofKey
  rw [Keccak.keccak256_eq]
  decide +kernel

theorem executes_byFounder {l : Ledger} {i : Instruction} {accounts : List AccountId}
    (hfits : i.kind.Fits i.args) (hnone : i.messages = []) :
    l.executes 2 (.byFounder i accounts) = [] :=
  executes_of_ne (i.decode_encode hfits) fun m hm => by rw [hnone] at hm; cases hm

/-- Both messages of the batch are executed where their deliveries are begun. -/
theorem executes_delivering {l : Ledger}
    (hdigests : Move.twoMessages.map l.books.digestOf? =
      [some Move.firstDigest, some Move.secondDigest])
    (hbegun : l.begins .delivering = [Move.firstDigest, Move.secondDigest]) :
    l.executes 2 .delivering = [1, 2] := by
  have hall : ∀ m ∈ Move.twoMessages, m.sourceChain = 2 ∧
      ∃ d, l.books.digestOf? m = some d ∧ d ∈ l.begins .delivering := by
    obtain ⟨hfirst, hsecond⟩ := List.cons_eq_cons.1 hdigests
    rw [hbegun, Move.twoMessages, List.forall_mem_cons, List.forall_mem_singleton]
    exact ⟨⟨rfl, _, hfirst, List.mem_cons_self⟩,
      ⟨rfl, _, (List.cons_eq_cons.1 hsecond).1, List.mem_cons_of_mem _ List.mem_cons_self⟩⟩
  exact executes_of_begins Move.decode_twoMessages hall

/-- The run executes the two messages and no other from their chain. -/
theorem executed_lastBatch : hosting.executed 2 Move.lastBatch = [1, 2] := by
  have hreadying : hosting.executed 2 Move.readying = [] := by
    simp only [Move.readying, executed, List.append_eq_nil_iff]
    exact ⟨executes_byFounder trivial rfl, executes_byFounder trivial rfl,
      executes_byFounder trivial rfl, executes_byFounder trivial rfl,
      executes_byFounder trivial rfl, trivial⟩
  have hdelivering := executes_delivering digestOf?_readying begins_delivering
  rw [Move.lastBatch, executed_append, hreadying, List.nil_append]
  generalize hosting.moves Move.readying = l at *
  have hpausing : (l.move .delivering).executes 2 .pausing = [] := executes_byFounder trivial rfl
  rw [executed, executed, executed, hdelivering, hpausing]
  rfl

/-- Two messages are executed from a chain before it is paused, and the record has the higher of
their nonces.  It stays as it is where the chain is configured once more, nothing from the chain is
executed, and what the founder sends to it is not queued. -/
theorem registry_after_batch :
    hosting.executed 2 Move.lastBatch = [1, 2] ∧
      ∃ c, Chain.record.load ((hosting.moves Move.lastBatch).account (.chain 2)) = .ok c ∧
        c.id = 2 ∧ c.active = false ∧
        Nonce.Highest (hosting.executed 2 Move.lastBatch) c.highestInbound ∧
        c.highestInbound = 2 ∧
        (∃ c', Chain.record.load
            (((hosting.moves Move.lastBatch).move .connecting).account (.chain 2)) = .ok c' ∧
          c'.outbound = c.outbound ∧ c'.inbound = c.inbound ∧ c'.highestInbound = 2 ∧
          c'.active = false) ∧
        (∀ move : Move, move.Allowed → (hosting.moves Move.lastBatch).executes 2 move = []) ∧
        ∀ k m, OutboundMessage.record.load
            (((hosting.moves Move.lastBatch).move .sending).account k) = .ok m →
          m.destinationChain = 2 →
          ∃ m₀, OutboundMessage.record.load ((hosting.moves Move.lastBatch).account k) = .ok m₀ ∧
            m = { m₀ with status := m.status } := by
  have hexecuted := executed_lastBatch
  obtain ⟨c, hc, hfields⟩ := Option.map_eq_some_iff.1 chain_lastBatch
  obtain ⟨hid, hpaused⟩ := Prod.mk.inj hfields
  have hload := load_chain hc
  obtain ⟨-, -, -, hhighest, hnext, -⟩ :=
    (registry_of_run fresh_hosting Move.allowed_lastBatch).1 _ c hload
  rw [hid] at hhighest hnext
  have hsending := ((hnext .sending (Move.allowed_byFounder _ _)).2 hpaused).2
  have hconnecting := (hnext .connecting (Move.allowed_byFounder _ _)).1 Move.configures_connecting
  -- from here on it does not matter how the chain was paused
  generalize hosting.executed 2 Move.lastBatch = nonces at *
  generalize hosting.moves Move.lastBatch = l at *
  have htwo : c.highestInbound = 2 := by
    rw [hexecuted] at hhighest
    obtain ⟨hle, hmem | ⟨hnil, -⟩⟩ := hhighest
    · -- the highest is one of the two, and not below the other
      have hge := hle 2 (by decide)
      rcases List.mem_pair.1 hmem with hone | htwo
      · rw [hone] at hge
        exact absurd hge (by decide)
      · exact htwo
    · cases hnil
  obtain ⟨c', hc', houtbound, hinbound, hkept, hstays⟩ := hconnecting
  exact ⟨hexecuted, c, hload, hid, hpaused, hhighest, htwo,
    ⟨c', hc', houtbound, hinbound, hkept.trans htwo, hstays.trans hpaused⟩,
    fun move hmove => ((hnext move hmove).2 hpaused).1, hsending⟩

end Ledger
end QuorumRelay
