import QuorumRelay.Proofs.Rates

/-!
# What a rate window lets through over time

A window that rolls over says nothing of what it admitted before.  So the bound on
any interval is not read off the window but off a log of all admissions, each with
the slot it fell into and the start of the window that let it through
(`Admission`).  `Windowed` is what such a log has to do with the window that
comes out of it.

## Why twice the limit

Two windows start at least an epoch apart, and a window admits only within the
epoch after its start.  Of the windows that admit within an interval of one epoch,
some have started before the interval and some in it.  Two that started before it
would lie so close that the first was over when the interval began; two that
started in it would be less than an epoch apart.  So there is at most one of each
kind (`Windowed.admitted_between_le`).

The limit may change from one admission to the next.  A window that was filled
under a high limit stays above a lower one, and then it admits nothing.
-/

namespace QuorumRelay

/-- Messages that a window admitted together. -/
structure Admission where
  slot : Slot
  /-- The start of the window that admitted them. -/
  start : Slot
  /-- The limit that they were admitted under. -/
  limit : UInt32
  count : Nat

/-- How many messages were admitted by the admissions of a kind. -/
def admitted (log : List Admission) (p : Admission → Prop) [DecidablePred p] : Nat :=
  ((log.filter fun a => p a).map Admission.count).sum

section

variable {log log' : List Admission} {a : Admission} {p q r : Admission → Prop}
  [DecidablePred p] [DecidablePred q] [DecidablePred r]

theorem admitted_cons : admitted (a :: log) p = (if p a then a.count else 0) + admitted log p := by
  unfold admitted
  by_cases h : p a
  · simp [h]
  · simp [h]

theorem admitted_append : admitted (log ++ log') p = admitted log p + admitted log' p := by
  simp [admitted]

theorem admitted_singleton : admitted [a] p = if p a then a.count else 0 := by
  rw [admitted_cons]
  rfl

/-- Admissions of nothing do not count, so only the others have to be of the larger kind. -/
theorem admitted_mono (h : ∀ a ∈ log, 0 < a.count → p a → q a) :
    admitted log p ≤ admitted log q := by
  induction log with
  | nil => exact Nat.le_refl 0
  | cons a log ih =>
    rw [List.forall_mem_cons] at h
    have hrest := ih h.2
    have hfirst : (if p a then a.count else 0) ≤ if q a then a.count else 0 := by
      split
      · rcases Nat.eq_zero_or_pos a.count with hzero | hpos
        · rw [hzero]
          exact Nat.zero_le _
        · exact Nat.le_of_eq (if_pos (h.1 hpos ‹p a›)).symm
      · exact Nat.zero_le _
    rw [admitted_cons, admitted_cons]
    omega

theorem admitted_eq_zero (h : ∀ a ∈ log, 0 < a.count → ¬ p a) : admitted log p = 0 := by
  have hle : admitted log p ≤ admitted log fun _ => False := admitted_mono h
  simpa [admitted] using hle

theorem admitted_le_add (h : ∀ a ∈ log, p a → q a ∨ r a) :
    admitted log p ≤ admitted log q + admitted log r := by
  induction log with
  | nil => exact Nat.le_refl 0
  | cons a log ih =>
    rw [List.forall_mem_cons] at h
    have hrest := ih h.2
    rw [admitted_cons, admitted_cons, admitted_cons]
    by_cases hp : p a
    · rcases h.1 hp with hq | hr
      · rw [if_pos hp, if_pos hq]
        omega
      · rw [if_pos hp, if_pos hr]
        omega
    · rw [if_neg hp]
      omega

end

namespace RateWindow

variable {L R : Nat} {w w' : RateWindow} {log : List Admission} {now epochLength : Slot}
  {limit count : UInt32}

/-- **What a window remembers of the admissions that led to it**, and how these lie in time.
An epoch has `L` slots, and no admission was made under a limit above `R`. -/
structure Windowed (L R : Nat) (w : RateWindow) (log : List Admission) : Prop where
  counted : admitted log (·.start = w.start) = w.count.toNat
  limited : ∀ start, admitted log (·.start = start) ≤ R
  /-- A window admits in the epoch after its start. -/
  within : ∀ a ∈ log, 0 < a.count →
    a.start.toNat ≤ a.slot.toNat ∧ a.slot.toNat < a.start.toNat + L
  /-- An admission is this window's, or that of a window which was over when this one started. -/
  before : ∀ a ∈ log, 0 < a.count → a.start = w.start ∨ a.start.toNat + L ≤ w.start.toNat
  /-- Windows start at least an epoch apart. -/
  apart : ∀ a ∈ log, ∀ b ∈ log, 0 < a.count → 0 < b.count →
    a.start = b.start ∨ a.start.toNat + L ≤ b.start.toNat ∨ b.start.toNat + L ≤ a.start.toNat

theorem windowed_fresh (L R : Nat) : Windowed L R {} [] where
  counted := rfl
  limited _ := Nat.zero_le R
  within := by simp
  before := by simp
  apart := by simp

/-- Where nothing is admitted, the window stays as it is. -/
theorem Windowed.skip (h : Windowed L R w log) {a : Admission} (ha : a.count = 0) :
    Windowed L R w (log ++ [a]) := by
  have hold : ∀ b ∈ log ++ [a], 0 < b.count → b ∈ log := by
    intro b hb hpos
    rcases List.mem_append.1 hb with hb | hb
    · exact hb
    · rw [List.mem_singleton.1 hb] at hpos
      omega
  have hsame : ∀ start, admitted (log ++ [a]) (·.start = start) =
      admitted log (·.start = start) := by
    intro start
    rw [admitted_append, admitted_singleton, ha, ite_self, Nat.add_zero]
  constructor
  · rw [hsame, h.counted]
  · intro start
    rw [hsame]
    exact h.limited start
  · exact fun b hb hpos => h.within b (hold b hb hpos) hpos
  · exact fun b hb hpos => h.before b (hold b hb hpos) hpos
  · exact fun b hb c hc hb' hc' => h.apart b (hold b hb hb') c (hold c hc hc') hb' hc'

/-! ## Using a window -/

/-- A window that is used at a slot is the one before, or starts there and then. -/
theorem current_cases (w : RateWindow) (epochLength : Slot) (hnow : now.toNat + 1 < UInt64.size) :
    (w.current now epochLength = w ∧ now.toNat < w.start.toNat + epochLength.toNat) ∨
      (w.current now epochLength = { start := now, count := 0 } ∧
        w.start.toNat + epochLength.toNat ≤ now.toNat) := by
  have hiff := Slot.later_le_iff w.start epochLength hnow
  unfold current
  by_cases hover : w.start.later epochLength ≤ now
  · exact .inr ⟨if_pos hover, hiff.1 hover⟩
  · exact .inl ⟨if_neg hover, Nat.not_le.1 fun hle => hover (hiff.2 hle)⟩

/-- A window that is used has started, if the one before had. -/
theorem start_le_of_accept (hstart : w.start ≤ now)
    (h : w.accept now epochLength limit count = .ok w') : w'.start ≤ now := by
  rw [(accept_eq_ok.1 h).1]
  unfold current
  split
  · exact UInt64.le_refl now
  · exact hstart

/-- The window in force has started, and its epoch is not over. -/
theorem now_mem_current (hepoch : 0 < epochLength) (hnow : now.toNat + 1 < UInt64.size)
    (hstart : w.start ≤ now) :
    (w.current now epochLength).start.toNat ≤ now.toNat ∧
      now.toNat < (w.current now epochLength).start.toNat + epochLength.toNat := by
  have hpos : 0 < epochLength.toNat := UInt64.lt_iff_toNat_lt.1 hepoch
  rcases current_cases w epochLength hnow with ⟨hsame, hruns⟩ | ⟨hnew, -⟩
  · rw [hsame]
    exact ⟨UInt64.le_iff_toNat_le.1 hstart, hruns⟩
  · rw [hnew]
    exact ⟨Nat.le_refl _, Nat.lt_add_of_pos_right hpos⟩

/-- A window that starts when the one before is over has admitted nothing yet. -/
theorem Windowed.restart (h : Windowed L R w log) (hpos : 0 < L)
    (hover : w.start.toNat + L ≤ now.toNat) : Windowed L R { start := now } log := by
  have hended : ∀ a ∈ log, 0 < a.count → a.start.toNat + L ≤ now.toNat := by
    intro a ha hcount
    rcases h.before a ha hcount with heq | hle
    · rw [heq]
      exact hover
    · omega
  constructor
  · refine admitted_eq_zero fun a ha hcount heq => ?_
    have hle := hended a ha hcount
    have heq' : a.start = now := heq
    rw [heq'] at hle
    omega
  · exact h.limited
  · exact h.within
  · exact fun a ha hcount => .inr (hended a ha hcount)
  · exact h.apart

/-- The window in force remembers the same admissions. -/
theorem Windowed.current (h : Windowed epochLength.toNat R w log) (hepoch : 0 < epochLength)
    (hnow : now.toNat + 1 < UInt64.size) :
    Windowed epochLength.toNat R (w.current now epochLength) log := by
  rcases current_cases w epochLength hnow with ⟨hsame, -⟩ | ⟨hnew, hover⟩
  · rw [hsame]
    exact h
  · rw [hnew]
    exact h.restart (UInt64.lt_iff_toNat_lt.1 hepoch) hover

/-- A window that runs remembers what is added to its count. -/
theorem Windowed.add (h : Windowed L R w log)
    (hruns : w.start.toNat ≤ now.toNat ∧ now.toNat < w.start.toNat + L)
    (hstart : w'.start = w.start) (hcount : w'.count.toNat = w.count.toNat + count.toNat)
    (hle : w'.count.toNat ≤ R) :
    Windowed L R w' (log ++ [{ slot := now, start := w'.start, limit, count := count.toNat }]) := by
  have hold : admitted log (·.start = w'.start) + count.toNat = w'.count.toNat := by
    rw [hstart, h.counted, hcount]
  constructor
  · rw [admitted_append, admitted_singleton, if_pos rfl, hold]
  · intro start
    rw [admitted_append, admitted_singleton]
    by_cases heq : w'.start = start
    · rw [if_pos heq, ← heq, hold]
      exact hle
    · rw [if_neg heq]
      exact h.limited start
  · intro a ha hpos
    rw [List.mem_append, List.mem_singleton] at ha
    rcases ha with ha | rfl
    · exact h.within a ha hpos
    · rw [hstart]
      exact hruns
  · intro a ha hpos
    rw [List.mem_append, List.mem_singleton] at ha
    rcases ha with ha | rfl
    · rw [hstart]
      exact h.before a ha hpos
    · exact .inl rfl
  · intro a ha b hb hpos hpos'
    rw [List.mem_append, List.mem_singleton] at ha hb
    rw [hstart] at ha hb
    rcases ha with ha | rfl
    · rcases hb with hb | rfl
      · exact h.apart a ha b hb hpos hpos'
      · exact (h.before a ha hpos).imp_right .inl
    · rcases hb with hb | rfl
      · exact (h.before b hb hpos').imp Eq.symm .inr
      · exact .inl rfl

/-- **What a window admits goes on its log**, under the start of the window that is in force. -/
theorem Windowed.accept (h : Windowed epochLength.toNat R w log) (hepoch : 0 < epochLength)
    (hnow : now.toNat + 1 < UInt64.size) (hstart : w.start ≤ now)
    (haccept : w.accept now epochLength limit count = .ok w') (hlimit : limit.toNat ≤ R) :
    Windowed epochLength.toNat R w'
      (log ++ [{ slot := now, start := w'.start, limit, count := count.toNat }]) := by
  obtain ⟨hstart', hcount, hle⟩ := accept_eq_ok.1 haccept
  exact (h.current hepoch hnow).add (now_mem_current hepoch hnow hstart) hstart' hcount
    (Nat.le_trans hle hlimit)

/-! ## The bounds -/

/-- Admissions that were all made by one window are no more than the limit. -/
theorem Windowed.admitted_le (h : Windowed L R w log) {p : Admission → Prop} [DecidablePred p]
    (hone : ∀ a ∈ log, ∀ b ∈ log, 0 < a.count → 0 < b.count → p a → p b → a.start = b.start) :
    admitted log p ≤ R := by
  by_cases hany : ∃ a ∈ log, 0 < a.count ∧ p a
  · obtain ⟨a, ha, hpos, hpa⟩ := hany
    calc admitted log p
        ≤ admitted log (·.start = a.start) :=
          admitted_mono fun b hb hpos' hpb => hone b hb a ha hpos' hpos hpb hpa
      _ ≤ R := h.limited a.start
  · rw [admitted_eq_zero fun a ha hpos hpa => hany ⟨a, ha, hpos, hpa⟩]
    exact Nat.zero_le R

/-- **In no interval of one epoch more than twice the limit is admitted.** -/
theorem Windowed.admitted_between_le (h : Windowed L R w log) (first : Nat) :
    admitted log (fun a => first ≤ a.slot.toNat ∧ a.slot.toNat < first + L) ≤ 2 * R := by
  -- the windows that started before the interval, and those that started in it
  have hsplit : admitted log (fun a => first ≤ a.slot.toNat ∧ a.slot.toNat < first + L) ≤
      admitted log (fun a => first ≤ a.slot.toNat ∧ a.start.toNat < first) +
        admitted log (fun a => first ≤ a.start.toNat ∧ a.slot.toNat < first + L) := by
    refine admitted_le_add fun a _ ha => ?_
    omega
  have hearlier : admitted log (fun a => first ≤ a.slot.toNat ∧ a.start.toNat < first) ≤ R := by
    refine h.admitted_le fun a ha b hb hpos hpos' hpa hpb => ?_
    have hwithin := h.within a ha hpos
    have hwithin' := h.within b hb hpos'
    rcases h.apart a ha b hb hpos hpos' with heq | hapart
    · exact heq
    · omega
  have hlater : admitted log (fun a => first ≤ a.start.toNat ∧ a.slot.toNat < first + L) ≤ R := by
    refine h.admitted_le fun a ha b hb hpos hpos' hpa hpb => ?_
    have hwithin := h.within a ha hpos
    have hwithin' := h.within b hb hpos'
    rcases h.apart a ha b hb hpos hpos' with heq | hapart
    · exact heq
    · omega
  omega

end RateWindow
end QuorumRelay
