import Mathlib.Data.Finset.Card
import Mathlib.Data.List.Perm.Basic
import QuorumRelay.Proofs.Conditions
import QuorumRelay.Proofs.Outbound.Queue
import QuorumRelay.Proofs.Seats

/-!
# A sponsor's list is a set

A sponsor keeps the destinations it pays for in a list of at most
`maxSponsoredTargets` entries.  A destination is added at the end; it is removed
by putting the last entry in its place, so the entries change places, and only
the first entry equal to the destination goes.  Both are what a set would do as
long as no destination stands in the list twice.  That is the invariant here,
`Sponsor.WellListed`, and with it the list is the set of its entries after any
calls (`Sponsor.list_is_set`): the calls that fail included, and those that pay in,
pay out and charge in between.

The list is compared with the set up to a permutation: an entry that is taken out
leaves a permutation of the list without its first such entry
(`Sponsor.withoutAt_perm`), and that is all that is used of how it is taken out.
-/

namespace QuorumRelay.Sponsor

variable {s s' : Sponsor} {target t : Target} {allowed : Bool} {fee amount : Amount} {u : Unit}
  {f : Fault}

/-! ## Setting one destination -/

/-- Moving the last entry into the place of another removes that other one. -/
theorem withoutAt_perm {targets : List Target} {i : Nat} (h : i < targets.length) :
    (withoutAt targets i).Perm (targets.eraseIdx i) := by
  obtain ⟨init, last, rfl⟩ : ∃ init last, targets = init ++ [last] :=
    ⟨_, _, (List.dropLast_append_getLast (List.ne_nil_of_length_pos (Nat.zero_lt_of_lt h))).symm⟩
  unfold withoutAt
  rw [List.getLast?_concat]
  show ((init ++ [last]).set i last).dropLast.Perm _
  rw [List.length_append, List.length_singleton] at h
  rcases Nat.lt_succ_iff_lt_or_eq.1 h with hi | rfl
  · rw [List.set_append_left _ _ hi, List.dropLast_concat, List.eraseIdx_append_of_lt_length hi]
    exact (List.set_perm_cons_eraseIdx hi last).trans (List.perm_append_singleton _ _).symm
  · simp [List.set_append_right, List.eraseIdx_append_of_length_le]

theorem not_mem_of_find {targets : List Target} (h : targets.findIdx? (· = target) = none) :
    target ∉ targets :=
  fun hmem => by simpa using List.findIdx?_eq_none_iff.1 h target hmem

theorem mem_of_find {targets : List Target} {i : Nat}
    (h : targets.findIdx? (· = target) = some i) : i < targets.length ∧ target ∈ targets := by
  obtain ⟨hi, hat, -⟩ := List.findIdx?_eq_some_iff_getElem.1 h
  exact ⟨hi, of_decide_eq_true hat ▸ List.getElem_mem hi⟩

/-- **What setting a destination does to the list**: it is added as to a set, or its first entry is
removed, and the entries may change places. -/
theorem setTarget_eq_ok (h : setTarget target allowed s = .ok u s') :
    s' = { s with targets := s'.targets } ∧
      (allowed = true → target ∈ s.targets ∨ s.targets.length < maxSponsoredTargets) ∧
      s'.targets.Perm (if allowed then s.targets.insert target else s.targets.erase target) := by
  unfold setTarget at h
  rw [get_bind] at h
  cases hfind : s.targets.findIdx? (· = target) with
  | none =>
    have habsent := not_mem_of_find hfind
    cases allowed with
    | false =>
      simp only [hfind, pure_eq_ok] at h
      obtain ⟨-, rfl⟩ := h
      exact ⟨rfl, fun hadd => absurd hadd Bool.false_ne_true,
        .of_eq (List.erase_of_not_mem habsent).symm⟩
    | true =>
      simp only [hfind, require_bind_eq_ok, set_eq_ok] at h
      obtain ⟨hroom, rfl⟩ := h
      refine ⟨rfl, fun _ => .inr hroom, ?_⟩
      rw [if_pos rfl, List.insert_of_not_mem habsent]
      exact List.perm_append_singleton _ _
  | some i =>
    obtain ⟨hi, hmem⟩ := mem_of_find hfind
    cases allowed with
    | false =>
      simp only [hfind, set_eq_ok] at h
      subst h
      refine ⟨rfl, fun hadd => absurd hadd Bool.false_ne_true, ?_⟩
      have herase : s.targets.erase target = s.targets.eraseIdx i := by
        rw [List.erase_eq_eraseIdx, show s.targets.idxOf? target = some i from hfind]
      rw [if_neg Bool.false_ne_true, herase]
      exact withoutAt_perm hi
    | true =>
      simp only [hfind, pure_eq_ok] at h
      obtain ⟨-, rfl⟩ := h
      exact ⟨rfl, fun _ => .inl hmem, .of_eq (List.insert_of_mem hmem).symm⟩

/-- **Setting a destination fails only where a new one finds the list full**, and then it changes
nothing. -/
theorem setTarget_eq_error : setTarget target allowed s = .error f s' ↔
    (allowed = true ∧ target ∉ s.targets ∧ maxSponsoredTargets ≤ s.targets.length) ∧
      f = .refused .tooManySponsoredTargets ∧ s' = s := by
  unfold setTarget
  rw [get_bind]
  cases hfind : s.targets.findIdx? (· = target) with
  | none =>
    have habsent := not_mem_of_find hfind
    cases allowed with
    | false => simp
    | true =>
      simp only [require_bind_eq_error, set_ne_error, and_false, or_false, Nat.not_lt, true_and,
        habsent, not_false_eq_true, eq_comm (a := s)]
  | some i =>
    obtain ⟨hi, hmem⟩ := mem_of_find hfind
    cases allowed with
    | false => simp
    | true => simp [hmem]

/-- A list that is set grows no longer than it may be. -/
theorem length_le_of_setTarget (h : setTarget target allowed s = .ok u s') :
    s'.targets.length ≤ max s.targets.length maxSponsoredTargets := by
  obtain ⟨-, hroom, hperm⟩ := setTarget_eq_ok h
  rw [hperm.length_eq]
  cases allowed with
  | false => exact Nat.le_trans (List.length_erase_le ..) (Nat.le_max_left _ _)
  | true =>
    rw [if_pos rfl]
    by_cases hmem : target ∈ s.targets
    · rw [List.insert_of_mem hmem]
      exact Nat.le_max_left _ _
    · rw [List.length_insert_of_not_mem hmem]
      exact Nat.le_trans ((hroom rfl).resolve_left hmem) (Nat.le_max_right _ _)

/-! ## Calls -/

/-- What a sponsor can be asked to do. -/
inductive Call where
  | setTarget (target : Target) (allowed : Bool)
  | deposit (amount : Amount)
  | withdraw (amount : Amount)
  | spend (target : Target) (fee : Amount)

namespace Call

/-- Make a call. -/
def run : Call → Action Sponsor Unit
  | setTarget target allowed => Sponsor.setTarget target allowed
  | deposit amount => Sponsor.deposit amount
  | withdraw amount => Sponsor.withdraw amount
  | spend target fee => Sponsor.spend target fee

/-- The destination that a call sets, where it succeeds, and whether it is then on the list. -/
def setting (c : Call) (s : Sponsor) : List (Target × Bool) :=
  match c, c.run.result s with
  | setTarget target allowed, .ok _ => [(target, allowed)]
  | _, _ => []

/-- The same call for a set with room for `maxSponsoredTargets` destinations. -/
def onSet (listed : Finset Target) : Call → Finset Target
  | setTarget target true =>
    if listed.card < maxSponsoredTargets then insert target listed else listed
  | setTarget target false => listed.erase target
  | _ => listed

end Call

/-- What the last of some settings says of a destination; nothing if none is about it. -/
def lastFor (t : Target) (settings : List (Target × Bool)) : Option Bool :=
  (settings.filter (·.1 = t)).getLast?.map Prod.snd

/-- The sponsor after calls, of which some may have failed. -/
def afterCalls (s : Sponsor) (calls : List Call) : Sponsor :=
  calls.foldl (fun s c => c.run.after s) s

/-- The settings that were made by calls, in order. -/
def settings (s : Sponsor) : List Call → List (Target × Bool)
  | [] => []
  | c :: calls => c.setting s ++ settings (c.run.after s) calls

/-- **A sponsor's list is that of a set**: nothing stands in it twice, and it has room. -/
structure WellListed (s : Sponsor) : Prop where
  nodup : s.targets.Nodup
  room : s.targets.length ≤ maxSponsoredTargets

/-! ## One call -/

theorem deposit_refuses (amount : Amount) (s : Sponsor) : (deposit amount).Refuses s :=
  .require_bind fun _ => .lift_bind (fun _ h => ⟨_, (Amount.plus_eq_error.1 h).2⟩) fun _ _ =>
    .of_ne_error fun f t => by simp

theorem withdraw_refuses (amount : Amount) (s : Sponsor) : (withdraw amount).Refuses s :=
  .require_bind fun _ => .require_bind fun _ => .of_ne_error fun f t => by simp

theorem isRefusal_of_checkCanPay (h : s.checkCanPay target fee = .error f) : f.IsRefusal := by
  unfold checkCanPay at h
  rcases except_bind_eq_error.1 h with h | ⟨_, -, h⟩
  · exact ⟨_, (require_eq_error.1 h).2⟩
  · exact ⟨_, (require_eq_error.1 h).2⟩

theorem spend_refuses (target : Target) (fee : Amount) (s : Sponsor) :
    (spend target fee).Refuses s :=
  .lift_bind (fun _ => isRefusal_of_checkCanPay) fun _ _ => .of_ne_error fun f t => by simp

/-- A sponsor is charged for a destination on its list, within its balance, and for no other. -/
theorem spend_eq_ok_iff : spend target fee s = .ok u s' ↔
    (target ∈ s.targets ∧ fee ≤ s.balance) ∧ s' = { s with balance := s.balance - fee } := by
  unfold spend
  simp only [get_bind, lift_bind_eq_ok, checkCanPay_eq_ok, set_eq_ok, exists_const,
    eq_comm (b := s')]

/-- **A call that fails is a refusal**, and changes nothing. -/
theorem Call.refuses (c : Call) (s : Sponsor) : c.run.Refuses s := by
  cases c with
  | setTarget target allowed =>
    intro f t h
    obtain ⟨-, rfl, rfl⟩ := setTarget_eq_error.1 h
    exact ⟨rfl, _, rfl⟩
  | deposit amount => exact deposit_refuses amount s
  | withdraw amount => exact withdraw_refuses amount s
  | spend target fee => exact spend_refuses target fee s

/-- A call that is no setting leaves the list, whatever becomes of it. -/
theorem targets_of_refuses {step : Action Sponsor Unit} (hrefuses : step.Refuses s)
    (hok : ∀ u s', step s = .ok u s' → s'.targets = s.targets) :
    (step.after s).targets = s.targets :=
  Action.after_induct hok fun f s' h => by rw [(hrefuses f s' h).1]

theorem targets_after_deposit (amount : Amount) (s : Sponsor) :
    ((deposit amount).after s).targets = s.targets :=
  targets_of_refuses (deposit_refuses amount s) fun _ _ h => by rw [(deposit_eq_ok h).2.2]

theorem targets_after_withdraw (amount : Amount) (s : Sponsor) :
    ((withdraw amount).after s).targets = s.targets :=
  targets_of_refuses (withdraw_refuses amount s) fun _ _ h => by rw [(withdraw_eq_ok h).2.2]

theorem targets_after_spend (target : Target) (fee : Amount) (s : Sponsor) :
    ((spend target fee).after s).targets = s.targets :=
  targets_of_refuses (spend_refuses target fee s) fun _ _ h => by rw [(spend_eq_ok h).2]

theorem lastFor_singleton (t target : Target) (allowed : Bool) :
    lastFor t [(target, allowed)] = if target = t then some allowed else none := by
  unfold lastFor
  by_cases ht : target = t <;> simp [ht]

theorem lastFor_append (t : Target) (earlier later : List (Target × Bool)) :
    lastFor t (earlier ++ later) = (lastFor t later).or (lastFor t earlier) := by
  unfold lastFor
  rw [List.filter_append, List.getLast?_append, Option.map_or]

namespace WellListed

/-- A list in which nothing stands twice, within its room, is the set of its entries. -/
theorem card_toFinset (h : s.WellListed) : s.targets.toFinset.card = s.targets.length :=
  List.toFinset_card_of_nodup h.nodup

theorem of_targets (h : s.WellListed) (htargets : s'.targets = s.targets) : s'.WellListed :=
  ⟨htargets ▸ h.nodup, htargets ▸ h.room⟩

/-- A setting that succeeds keeps the list that of a set. -/
theorem of_setTarget (h : s.WellListed) (hset : setTarget target allowed s = .ok u s') :
    s'.WellListed := by
  refine ⟨?_, Nat.le_trans (length_le_of_setTarget hset) (Nat.max_le.2 ⟨h.room, Nat.le_refl _⟩)⟩
  obtain ⟨-, -, hperm⟩ := setTarget_eq_ok hset
  rw [hperm.nodup_iff]
  cases allowed with
  | false => exact h.nodup.erase target
  | true => exact h.nodup.insert

/-- The destination that was set is on the list as it was set, and the others are where they
were. -/
theorem mem_of_setTarget (h : s.WellListed) (hset : setTarget target allowed s = .ok u s') :
    t ∈ s'.targets ↔ if t = target then allowed = true else t ∈ s.targets := by
  obtain ⟨-, -, hperm⟩ := setTarget_eq_ok hset
  rw [hperm.mem_iff]
  cases allowed with
  | false =>
    rw [if_neg Bool.false_ne_true, h.nodup.mem_erase_iff]
    by_cases ht : t = target <;> simp [ht]
  | true =>
    rw [if_pos rfl, List.mem_insert_iff]
    by_cases ht : t = target <;> simp [ht]

/-- **A setting does to the list what it does to the set**, whether it succeeds or fails. -/
theorem toFinset_after_setTarget (h : s.WellListed) :
    ((setTarget target allowed).after s).targets.toFinset =
      (Call.setTarget target allowed).onSet s.targets.toFinset := by
  refine Action.after_induct
    (P := fun s' : Sponsor => s'.targets.toFinset =
      (Call.setTarget target allowed).onSet s.targets.toFinset)
    (fun u s' hset => ?_) fun f s' hfail => ?_
  · ext t
    rw [List.mem_toFinset, h.mem_of_setTarget hset]
    cases allowed with
    | false =>
      simp only [Call.onSet, Finset.mem_erase, List.mem_toFinset]
      by_cases ht : t = target <;> simp [ht]
    | true =>
      have hroom := (setTarget_eq_ok hset).2.1 rfl
      simp only [Call.onSet, h.card_toFinset]
      by_cases hlt : s.targets.length < maxSponsoredTargets
      · rw [if_pos hlt, Finset.mem_insert, List.mem_toFinset]
        by_cases ht : t = target <;> simp [ht]
      · have hmem : target ∈ s.targets := hroom.resolve_right hlt
        rw [if_neg hlt, List.mem_toFinset]
        by_cases ht : t = target <;> simp [ht, hmem]
  · obtain ⟨⟨rfl, -, hfull⟩, -, rfl⟩ := setTarget_eq_error.1 hfail
    simp only [Call.onSet, h.card_toFinset]
    rw [if_neg (Nat.not_lt.2 hfull)]

/-- **One call**: the list stays that of a set, and follows the set. -/
theorem after (h : s.WellListed) (c : Call) :
    (c.run.after s).WellListed ∧
      (c.run.after s).targets.toFinset = c.onSet s.targets.toFinset := by
  have hkept : ∀ {s' : Sponsor}, s'.targets = s.targets →
      s'.WellListed ∧ s'.targets.toFinset = s.targets.toFinset :=
    fun htargets => ⟨h.of_targets htargets, by rw [htargets]⟩
  cases c with
  | setTarget target allowed =>
    refine ⟨Action.after_induct (fun _ _ => h.of_setTarget) fun f s' hfail => ?_,
      h.toFinset_after_setTarget⟩
    exact (setTarget_eq_error.1 hfail).2.2 ▸ h
  | deposit amount => exact hkept (targets_after_deposit amount s)
  | withdraw amount => exact hkept (targets_after_withdraw amount s)
  | spend target fee => exact hkept (targets_after_spend target fee s)

/-- A call leaves a destination on the list as it sets it, or else as it was. -/
theorem mem_after (h : s.WellListed) (c : Call) (t : Target) :
    decide (t ∈ (c.run.after s).targets) =
      (lastFor t (c.setting s)).getD (decide (t ∈ s.targets)) := by
  cases c with
  | setTarget target allowed =>
    cases hrun : setTarget target allowed s with
    | ok u s' =>
      have hsetting : (Call.setTarget target allowed).setting s = [(target, allowed)] := by
        simp only [Call.setting, Call.run, Action.result_of_ok hrun]
      rw [hsetting, show (Call.setTarget target allowed).run.after s = s' from
        Action.after_of_ok hrun]
      simp only [h.mem_of_setTarget hrun, lastFor_singleton]
      by_cases ht : t = target <;> simp [ht, eq_comm (a := target)]
    | error f s' =>
      have hsetting : (Call.setTarget target allowed).setting s = [] := by
        simp only [Call.setting, Call.run, Action.result_of_error hrun]
      rw [hsetting, show (Call.setTarget target allowed).run.after s = s' from
        Action.after_of_error hrun, (setTarget_eq_error.1 hrun).2.2]
      rfl
  | deposit amount => exact congrArg (decide <| t ∈ ·) (targets_after_deposit amount s)
  | withdraw amount => exact congrArg (decide <| t ∈ ·) (targets_after_withdraw amount s)
  | spend target fee => exact congrArg (decide <| t ∈ ·) (targets_after_spend target fee s)

/-! ## Runs -/

/-- Every run keeps the list that of a set, and follows the set: by induction on the calls. -/
theorem afterCalls (h : s.WellListed) (calls : List Call) :
    (s.afterCalls calls).WellListed ∧
      (s.afterCalls calls).targets.toFinset = calls.foldl Call.onSet s.targets.toFinset := by
  induction calls generalizing s with
  | nil => exact ⟨h, rfl⟩
  | cons c calls ih =>
    obtain ⟨hlisted, hset⟩ := h.after c
    rw [List.foldl_cons, ← hset]
    exact ih hlisted

/-- After a run a destination is on the list as the last setting that succeeded has it. -/
theorem mem_afterCalls (h : s.WellListed) (calls : List Call) (t : Target) :
    decide (t ∈ (s.afterCalls calls).targets) =
      (lastFor t (s.settings calls)).getD (decide (t ∈ s.targets)) := by
  induction calls generalizing s with
  | nil => rfl
  | cons c calls ih =>
    rw [settings, lastFor_append, Option.getD_or, ← h.mem_after c t]
    exact ih (h.after c).1

end WellListed

theorem wellListed_nil (owner : Key) (balance : Amount) (bump : UInt8) :
    WellListed { owner, balance, bump } :=
  ⟨List.nodup_nil, Nat.zero_le _⟩

/-- **A sponsor's list is a set with room for sixteen destinations**, whatever calls were made, in
which order, and which of them failed. -/
theorem list_is_set (owner : Key) (balance : Amount) (bump : UInt8) (calls : List Call) :
    let fresh : Sponsor := { owner, balance, bump }
    let s := fresh.afterCalls calls
    let listed := calls.foldl Call.onSet ∅
    -- the list holds no destination twice and is no longer than it may be
    (s.targets.Nodup ∧ s.targets.length ≤ 16) ∧
    -- it is the set to which the same calls were made
    s.targets.toFinset = listed ∧
    -- a destination is on it exactly if the last setting of it that succeeded put it there
    (∀ t, t ∈ s.targets ↔ lastFor t (fresh.settings calls) = some true) ∧
    -- a setting fails exactly if a new destination finds the set full, and changes nothing then
    (∀ t allowed f s', setTarget t allowed s = .error f s' ↔
      (allowed = true ∧ t ∉ listed ∧ listed.card = 16) ∧
        f = .refused .tooManySponsoredTargets ∧ s' = s) ∧
    -- a charge succeeds exactly for a destination of the set, within the balance
    ∀ t fee s', spend t fee s = .ok () s' ↔
      (t ∈ listed ∧ fee ≤ s.balance) ∧ s' = { s with balance := s.balance - fee } := by
  intro fresh s listed
  obtain ⟨h, hset : s.targets.toFinset = listed⟩ :=
    (wellListed_nil owner balance bump).afterCalls calls
  have hmem : ∀ t, t ∈ listed ↔ t ∈ s.targets := fun t => by rw [← hset, List.mem_toFinset]
  refine ⟨⟨h.nodup, h.room⟩, hset, fun t => ?_, fun t allowed f s' => ?_, fun t fee s' => ?_⟩
  · have hlast := (wellListed_nil owner balance bump).mem_afterCalls calls t
    rw [← decide_eq_true_iff (p := t ∈ s.targets), hlast]
    cases lastFor t (fresh.settings calls) <;> simp
  · have hfull : maxSponsoredTargets ≤ s.targets.length ↔ listed.card = 16 := by
      rw [← hset, h.card_toFinset]
      exact ⟨fun hle => Nat.le_antisymm h.room hle, fun heq => heq.ge⟩
    rw [setTarget_eq_error, hmem, hfull]
  · rw [spend_eq_ok_iff, hmem]

/-- The last destination of the list takes the place of the one that leaves. -/
example : (afterCalls {} [.setTarget { chain := 1 } true, .setTarget { chain := 2 } true,
    .setTarget { chain := 3 } true, .setTarget { chain := 1 } false]).targets =
      [{ chain := 3 }, { chain := 2 }] := by
  decide

end QuorumRelay.Sponsor
