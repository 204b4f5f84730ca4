import Mathlib.Data.List.Induction
import QuorumRelay.Proofs.Ledger.Log
import QuorumRelay.Proofs.Ledger.Run

/-!
# The log of outbound messages is append-only

Messages that leave are recorded under their nonces, and the record of a message
is what its sender later gets its value back on, and what a quorum confirms.  So
it matters that no record is lost, written over or taken back, and that a nonce
stands for one message only.

`Ledger.log_of_run` says so of all runs from a ledger on which the program owns
nothing.  The step is `LogStep`, which a move of the ledger makes as an
instruction does (`Ledger.Sound.logStep`); what others do leaves the log alone.

## Where a message came from

Looking back from a record, there is one move of the run that sent it
(`Ledger.Sent`), and only the status has changed since.  Looking ahead, a message
that has ended stays as it is, and one that is still open stays up to its status.
-/

namespace QuorumRelay

namespace Ledger

variable {l : Ledger} {move : Move} {ms : List Move} {n : Nonce} {m : OutboundMessage}

/-! ## Moves -/

/-- The nonces that a move hands out. -/
def handsOut (l : Ledger) : Move → List Nonce
  | .run env data accounts => sentNonces (l.run env data accounts).events
  | .outside _ => []

/-- The nonces that a row of moves hands out, in order. -/
def handedOut (l : Ledger) : List Move → List Nonce
  | [] => []
  | move :: ms => l.handsOut move ++ (l.move move).handedOut ms

/-- A move sends a message. -/
def Sending (l : Ledger) (move : Move) (m : OutboundMessage) : Prop :=
  ∃ env data accounts i, move = .run env data accounts ∧ Instruction.decode data = .ok i ∧
    Sends env accounts l.books i m

/-- A move times out the message of a nonce. -/
def TimingOut (l : Ledger) (move : Move) (n : Nonce) (m : OutboundMessage) : Prop :=
  ∃ env data accounts i, move = .run env data accounts ∧ Instruction.decode data = .ok i ∧
    TimesOut env accounts l.books i n m

/-- **Every move is a step of the log.** -/
theorem Sound.logStep (hs : l.Sound) (hm : move.Allowed) :
    LogStep (l.Sending move) (l.TimingOut move) l.books (l.move move).books
      (l.handsOut move) := by
  cases move with
  | outside change =>
    have hbooks : (l.move (.outside change)).books = l.books := (hm l).keeps.books
    rw [hbooks]
    exact .kept rfl (fun _ => rfl) rfl
  | run env data accounts =>
    show LogStep _ _ l.books (l.run env data accounts).ledger.books
      (sentNonces (l.run env data accounts).events)
    rcases hs.carriesOut hm with ⟨f, notices, hrun⟩ | ⟨i, t, hrun⟩
    · rw [hrun]
      exact .kept rfl (fun _ => rfl) rfl
    · rw [hrun.events]
      exact hrun.effect.logStep.mono
        (fun m hsends => ⟨env, data, accounts, i, rfl, hrun.decoded, hsends⟩)
        fun n m htimesOut => ⟨env, data, accounts, i, rfl, hrun.decoded, htimesOut⟩

/-! ## Runs -/

/-- A message was sent in a row of moves, and since then only its status has changed. -/
def Sent (l : Ledger) (ms : List Move) (m : OutboundMessage) : Prop :=
  ∃ first move rest, ms = first ++ move :: rest ∧
    (l.moves first).Sending move { m with status := .queued } ∧
    OutboundMessage.record.load ((l.moves (first ++ [move])).account (.outbound m.nonce)) =
      .ok { m with status := .queued }

/-- **Along a run the log has no gaps, and nonces are handed out in order.** -/
theorem Sound.dense_moves (hs : l.Sound) (h : ∀ m ∈ ms, m.Allowed) (hdense : l.books.Dense) :
    (l.moves ms).books.Dense ∧ List.range l.books.sentCount ++
      (l.handedOut ms).map UInt64.toNat = List.range (l.moves ms).books.sentCount := by
  induction ms generalizing l with
  | nil => exact ⟨hdense, List.append_nil _⟩
  | cons move ms ih =>
    rw [List.forall_mem_cons] at h
    have hstep := hs.logStep h.1
    obtain ⟨hdense', hrange⟩ := ih (hs.move h.1) h.2 (hstep.dense hdense)
    refine ⟨hdense', ?_⟩
    rw [handedOut, List.map_append, ← List.append_assoc, hstep.range_eq]
    exact hrange

/-- **Every message of the log was sent in the run.** -/
theorem Sound.sent_of_moves (hs : l.Sound) (h : ∀ m ∈ ms, m.Allowed) (hdense : l.books.Dense)
    (hnone : ∀ n, l.books (.outbound n) = none)
    (hm : (l.moves ms).books (.outbound n) = some m) : l.Sent ms m := by
  induction ms using List.reverseRecOn generalizing m with
  | nil =>
    rw [show l.moves [] = l from rfl, hnone n] at hm
    cases hm
  | append_singleton ms move ih =>
    rw [List.forall_mem_append, List.forall_mem_singleton] at h
    have hdense' := (hs.dense_moves h.1 hdense).1
    have hstep := (hs.moves h.1).logStep h.2
    have hafter := hm
    rw [moves_append] at hm
    rcases hstep.origin hm with ⟨status, hbefore⟩ | hsending
    · obtain ⟨first, sender, rest, rfl, hsent, hload⟩ := ih h.1 hbefore
      exact ⟨first, sender, rest ++ [move], by simp, hsent, hload⟩
    · have hqueued : { m with status := .queued } = m := by
        obtain ⟨env, data, accounts, i, -, -, hsends⟩ := hsending
        rw [← hsends.status]
      have hnonce : m.nonce = n := (hstep.dense hdense' n).2 m hm
      refine ⟨ms, move, [], rfl, by rw [hqueued]; exact hsending, ?_⟩
      rw [hqueued, hnonce]
      exact load_outbound hafter

/-- **A message of the log stays**, as it is once it has ended. -/
theorem Sound.exists_status_moves (hs : l.Sound) (h : ∀ m ∈ ms, m.Allowed)
    (hdense : l.books.Dense) (hm : l.books (.outbound n) = some m) :
    ∃ status, (l.moves ms).books (.outbound n) = some { m with status } ∧
      Relation.ReflTransGen MessageStatus.Advances m.status status := by
  induction ms generalizing l m with
  | nil => exact ⟨m.status, hm, .refl⟩
  | cons move ms ih =>
    rw [List.forall_mem_cons] at h
    have hstep := hs.logStep h.1
    obtain ⟨status, hm', hstatus⟩ := hstep.exists_status hdense hm
    obtain ⟨last, hlast, hadvances⟩ := ih (hs.move h.1) h.2 (hstep.dense hdense) hm'
    refine ⟨last, hlast, ?_⟩
    rcases hstatus with rfl | ⟨hadvance, -⟩
    · exact hadvances
    · exact .head hadvance hadvances

theorem Fresh.dense (h : l.Fresh) : l.books.Dense := by
  intro n
  rw [Books.sentCount, h.books_eq_none, h.books_eq_none]
  refine ⟨⟨?_, fun h => absurd h (Nat.not_lt_zero _)⟩, ?_⟩
  · rintro ⟨m, hm⟩
    cases hm
  · intro m hm
    cases hm

/-- A message of a log without gaps is at its own nonce, wherever it is looked for. -/
theorem outbound_of_load (hk : l.Kept) (hdense : l.books.Dense) {id : AccountId}
    (h : OutboundMessage.record.load (l.account id) = .ok m) :
    id = .outbound m.nonce ∧ l.books (.outbound m.nonce) = some m := by
  obtain ⟨n, rfl⟩ := hk.exists_nonce_of_load h
  have hbooks : l.books (.outbound n) = some m := entry_of_load (p := .outbound n) h
  obtain rfl := (hdense n).2 m hbooks
  exact ⟨rfl, hbooks⟩

/-- **The log of outbound messages is append-only, over any run.**  It has no gaps: there is a
message at the account of a nonce exactly if the nonce is below the bridge's counter, and no account
but its own holds it.  The nonces that were handed out are those below the counter, each once and
in order.  Every message was sent by one instruction of the run, with what was asked for, the fee
that was estimated at the time and its sender's signature, and only its status has changed since.
Whatever is done next, its status stays or moves on, and it is timed out only by an instruction that
its sender signed, late enough; and once it has ended it stays as it is. -/
theorem log_of_run {l : Ledger} (hfresh : l.Fresh) {past : List Move}
    (hpast : ∀ move ∈ past, move.Allowed) {b : Bridge}
    (hb : Bridge.record.load ((l.moves past).account .bridge) = .ok b) :
    (∀ n, (∃ m, OutboundMessage.record.load ((l.moves past).account (.outbound n)) = .ok m) ↔
      n < b.nextNonce) ∧
    (l.handedOut past).map UInt64.toNat = List.range b.nextNonce.toNat ∧
    (l.handedOut past).Nodup ∧
    ∀ id m, OutboundMessage.record.load ((l.moves past).account id) = .ok m →
      id = .outbound m.nonce ∧ l.Sent past m ∧
      (∀ move : Move, move.Allowed → ∃ status,
        OutboundMessage.record.load (((l.moves past).move move).account id) =
          .ok { m with status } ∧
        (status = m.status ∨ m.status.Advances status ∧
          (status = .failed → (l.moves past).TimingOut move m.nonce m))) ∧
      ∀ later : List Move, (∀ move ∈ later, move.Allowed) → ∃ status,
        OutboundMessage.record.load (((l.moves past).moves later).account id) =
          .ok { m with status } ∧
        Relation.ReflTransGen MessageStatus.Advances m.status status ∧
        (m.status.isOpen = false → status = m.status) := by
  have hs := hfresh.sound.moves hpast
  obtain ⟨hdense, hrange⟩ := hfresh.sound.dense_moves hpast hfresh.dense
  have hcount : (l.moves past).books.sentCount = b.nextNonce.toNat :=
    Books.sentCount_of_some (entry_of_load (p := .bridge) hb)
  have hstart : l.books.sentCount = 0 := by
    rw [Books.sentCount, hfresh.books_eq_none]
  rw [hstart, hcount, List.range_zero, List.nil_append] at hrange
  refine ⟨fun n => ?_, hrange, ?_, fun id m hm => ?_⟩
  · rw [UInt64.lt_iff_toNat_lt, ← hcount, ← (hdense n).1]
    exact exists_congr fun m =>
      ⟨entry_of_load (p := .outbound n), load_outbound⟩
  · refine List.Nodup.of_map UInt64.toNat ?_
    rw [hrange]
    exact List.nodup_range
  · obtain ⟨rfl, hheld⟩ := outbound_of_load hs.kept hdense hm
    refine ⟨rfl, ?_, fun move hmove => ?_, fun later hlater => ?_⟩
    · exact hfresh.sound.sent_of_moves hpast hfresh.dense
        (fun n => hfresh.books_eq_none (.outbound n)) hheld
    · obtain ⟨status, hstored, hstatus⟩ := (hs.logStep hmove).exists_status hdense hheld
      exact ⟨status, load_outbound hstored, hstatus⟩
    · obtain ⟨status, hstored, hadvances⟩ := hs.exists_status_moves hlater hdense hheld
      refine ⟨status, load_outbound hstored, hadvances, fun hended => ?_⟩
      -- a message that has ended has no next status
      rcases hadvances.cases_head with heq | ⟨next, hfirst, -⟩
      · exact heq.symm
      · rw [hfirst.isOpen] at hended
        cases hended

end Ledger

/-- A bridge sends its first message. -/
def Move.firstSend : List Move := [founding, connecting, sending]

theorem Move.allowed_firstSend : ∀ move ∈ firstSend, move.Allowed := by
  simp only [firstSend, List.forall_mem_cons]
  exact ⟨allowed_byFounder _ _, allowed_byFounder _ _, allowed_byFounder _ _, nofun⟩

namespace Ledger

/-- After one message was sent there is one record, of the nonce zero, and it stays. -/
theorem log_of_first_message :
    funded.handedOut Move.firstSend = [0] ∧
      ∃ m, OutboundMessage.record.load ((funded.moves Move.firstSend).account (.outbound 0)) =
          .ok m ∧
        m.sender = founder.key ∧ m.value = 5 ∧ funded.Sent Move.firstSend m ∧
        ∀ later : List Move, (∀ move ∈ later, move.Allowed) → ∃ status,
          OutboundMessage.record.load
            (((funded.moves Move.firstSend).moves later).account (.outbound 0)) =
              .ok { m with status } := by
  have hrecords : ((funded.moves Move.firstSend).books .bridge).map Bridge.nextNonce = some 1 ∧
      ((funded.moves Move.firstSend).books (.outbound 0)).map (fun m => (m.sender, m.value)) =
        some (founder.key, 5) := by
    decide +kernel
  obtain ⟨hbridge, hstored⟩ := hrecords
  obtain ⟨b, hb, hnext⟩ := Option.map_eq_some_iff.1 hbridge
  obtain ⟨m, hm, hfields⟩ := Option.map_eq_some_iff.1 hstored
  obtain ⟨hsender, hvalue⟩ := Prod.mk.inj hfields
  have hload := load_outbound hm
  obtain ⟨-, hrange, -, hlog⟩ :=
    log_of_run fresh_funded Move.allowed_firstSend (load_bridge hb)
  obtain ⟨-, hsent, -, hlater⟩ := hlog _ m hload
  refine ⟨?_, m, hload, hsender, hvalue, hsent, fun later h => ?_⟩
  · rw [hnext] at hrange
    exact List.map_injective_iff.2 (fun _ _ => UInt64.toNat_inj.1) hrange
  · obtain ⟨status, hstatus, -⟩ := hlater later h
    exact ⟨status, hstatus⟩

end Ledger
end QuorumRelay
