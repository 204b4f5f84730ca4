import QuorumRelay.Proofs.Step

/-!
# Conditions in a row

A step that looks before it writes has conditions, and they stand in an order:
the fault it reports is that of the first condition that does not hold.  To know
a step exactly is to know that list.

`Check.Follows` says that a check goes by a list of conditions.  It says both
things at once, when the check passes and why it fails if it does not, so that no
condition can be missing from the list or stand in the wrong place.  The lists of
checks made one after the other are put one behind the other
(`Follows.bind`), and the list of a step is put together from those of the checks
it makes.

## What a list leaves open

A condition may have faults of its own, as when a check is handed over by
somebody else; then it holds if that check passes and fails as that check does
(`Condition.passes`).
-/

namespace QuorumRelay

/-- Two checks fail as the first does, or as the second. -/
theorem except_bind_eq_error {α β : Type} {x : Except Fault α} {k : α → Except Fault β}
    {f : Fault} : x >>= k = .error f ↔ x = .error f ∨ ∃ a, x = .ok a ∧ k a = .error f := by
  cases x <;> simp [bind, Except.bind]

theorem except_map_eq_ok {ε α β : Type} {x : Except ε α} {g : α → β} {b : β} :
    g <$> x = .ok b ↔ ∃ a, x = .ok a ∧ g a = b := by
  cases x <;> simp [Functor.map, Except.map]

theorem except_map_eq_error {ε α β : Type} {x : Except ε α} {g : α → β} {e : ε} :
    g <$> x = .error e ↔ x = .error e := by
  cases x <;> simp [Functor.map, Except.map]

/-- A check on every element of a list fails as the first element that fails. -/
theorem except_mapM_eq_error {α β : Type} {x : α → Except Fault β} {as : List α} {f : Fault} :
    as.mapM x = .error f ↔ ∃ before a after, as = before ++ a :: after ∧
      (∀ b ∈ before, ∃ y, x b = .ok y) ∧ x a = .error f := by
  induction as with
  | nil => simp [pure, Except.pure]
  | cons a as ih =>
    simp only [List.mapM_cons, except_bind_eq_error, ih]
    constructor
    · rintro (ha | ⟨y, ha, ⟨before, b, after, rfl, hbefore, hb⟩ | ⟨ys, -, h⟩⟩)
      · exact ⟨[], a, as, rfl, by simp, ha⟩
      · exact ⟨a :: before, b, after, rfl, List.forall_mem_cons.2 ⟨⟨y, ha⟩, hbefore⟩, hb⟩
      · cases h
    · rintro ⟨before, b, after, heq, hbefore, hb⟩
      cases before with
      | nil =>
        obtain ⟨rfl, -⟩ := List.cons.inj heq
        exact Or.inl hb
      | cons a' before =>
        obtain ⟨rfl, hrest⟩ := List.cons.inj heq
        obtain ⟨⟨y, ha⟩, hbefore⟩ := List.forall_mem_cons.1 hbefore
        exact Or.inr ⟨y, ha, Or.inl ⟨before, b, after, hrest, hbefore, hb⟩⟩

/-- A condition: when it holds, and the faults that it gives where it does not. -/
structure Condition where
  Holds : Prop
  Fails : Fault → Prop

namespace Condition

/-- A condition that has one fault. -/
def of (p : Prop) (fault : Fault) : Condition where
  Holds := p
  Fails f := ¬ p ∧ f = fault

/-- A condition that is refused for one reason. -/
def requires (p : Prop) (reason : Refusal) : Condition := of p (.refused reason)

/-- The condition that a check passes. -/
def passes {α : Type} (x : Except Fault α) : Condition where
  Holds := ∃ a, x = .ok a
  Fails f := x = .error f

/-- All conditions of a list hold. -/
def AllHold (cs : List Condition) : Prop := ∀ c ∈ cs, c.Holds

/-- **The first condition that does not hold**, of those in a list, gives this fault. -/
def FirstFails (cs : List Condition) (f : Fault) : Prop :=
  ∃ before c after, cs = before ++ c :: after ∧ AllHold before ∧ c.Fails f

variable {p : Prop} {f fault : Fault} {reason : Refusal} {c : Condition}
  {cs ds : List Condition}

@[simp] theorem holds_of : (of p fault).Holds ↔ p := Iff.rfl

@[simp] theorem fails_of : (of p fault).Fails f ↔ ¬ p ∧ f = fault := Iff.rfl

@[simp] theorem holds_requires : (requires p reason).Holds ↔ p := Iff.rfl

@[simp] theorem fails_requires :
    (requires p reason).Fails f ↔ ¬ p ∧ f = .refused reason := Iff.rfl

@[simp] theorem allHold_nil : AllHold [] := fun _ h => absurd h List.not_mem_nil

@[simp] theorem allHold_cons : AllHold (c :: cs) ↔ c.Holds ∧ AllHold cs := List.forall_mem_cons

@[simp] theorem allHold_append : AllHold (cs ++ ds) ↔ AllHold cs ∧ AllHold ds :=
  List.forall_mem_append

@[simp] theorem not_firstFails_nil : ¬ FirstFails [] f := by
  rintro ⟨before, c, after, heq, -⟩
  simp at heq

/-- Either the first condition fails, or it holds and one of the others is the first to fail. -/
@[simp] theorem firstFails_cons : FirstFails (c :: cs) f ↔ c.Fails f ∨ c.Holds ∧ FirstFails cs f := by
  constructor
  · rintro ⟨before, d, after, heq, hbefore, hfails⟩
    cases before with
    | nil =>
      obtain ⟨rfl, -⟩ := List.cons.inj heq
      exact Or.inl hfails
    | cons b before =>
      obtain ⟨rfl, hrest⟩ := List.cons.inj heq
      obtain ⟨hc, hbefore⟩ := allHold_cons.1 hbefore
      exact Or.inr ⟨hc, before, d, after, hrest, hbefore, hfails⟩
  · rintro (hfails | ⟨hc, before, d, after, rfl, hbefore, hfails⟩)
    · exact ⟨[], c, cs, rfl, allHold_nil, hfails⟩
    · exact ⟨c :: before, d, after, rfl, allHold_cons.2 ⟨hc, hbefore⟩, hfails⟩

theorem firstFails_append :
    FirstFails (cs ++ ds) f ↔ FirstFails cs f ∨ AllHold cs ∧ FirstFails ds f := by
  induction cs with
  | nil => simp
  | cons c cs ih =>
    rw [List.cons_append, firstFails_cons, firstFails_cons, allHold_cons, ih, and_or_left,
      ← or_assoc, and_assoc]

end Condition

open Condition

/-- **A check goes by a list of conditions**: it passes if all of them hold, and fails as the
first that does not. -/
structure Follows {α : Type} (x : Except Fault α) (C : List Condition) : Prop where
  passes : (∃ a, x = .ok a) ↔ AllHold C
  fails : ∀ f, x = .error f ↔ FirstFails C f

namespace Follows

variable {α β : Type} {x y : Except Fault α} {C D : List Condition} {p q : Prop} {reason : Refusal}

/-- Nothing is asked where a result is given. -/
protected theorem pure (a : α) : Follows (pure a) [] where
  passes := ⟨fun _ => allHold_nil, fun _ => ⟨a, rfl⟩⟩
  fails _ := ⟨fun h => (nomatch h), fun h => absurd h not_firstFails_nil⟩

protected theorem require [Decidable p] : Follows (require p reason) [requires p reason] where
  passes := by simp [require_eq_ok]
  fails f := by simp [require_eq_error]

/-- Any check goes by the condition that it passes. -/
protected theorem check (x : Except Fault α) : Follows x [.passes x] where
  passes := by simp [Condition.passes]
  fails f := by simp [Condition.passes]

/-- A check for one thing, with one fault. -/
theorem single {fault : Fault} (hok : (∃ a, x = .ok a) ↔ p)
    (hfault : ∀ f, x = .error f → f = fault) : Follows x [.of p fault] where
  passes := by simpa using hok
  fails f := by
    simp only [firstFails_cons, fails_of, not_firstFails_nil, and_false, or_false]
    rw [← hok]
    cases x with
    | ok a => simp
    | error e =>
      obtain rfl := hfault e rfl
      simp [eq_comm]

/-- **Checks one after the other** go by one list behind the other. -/
protected theorem bind {k : α → Except Fault β} (hx : Follows x C)
    (hk : ∀ a, x = .ok a → Follows (k a) D) : Follows (x >>= k) (C ++ D) where
  passes := by
    rw [allHold_append, ← hx.passes]
    constructor
    · rintro ⟨b, h⟩
      obtain ⟨a, ha, hb⟩ := except_bind_eq_ok.1 h
      exact ⟨⟨a, ha⟩, (hk a ha).passes.1 ⟨b, hb⟩⟩
    · rintro ⟨⟨a, ha⟩, hD⟩
      obtain ⟨b, hb⟩ := (hk a ha).passes.2 hD
      exact ⟨b, except_bind_eq_ok.2 ⟨a, ha, hb⟩⟩
  fails f := by
    rw [firstFails_append, ← hx.passes, ← hx.fails]
    cases x with
    | error e => simp [bind, Except.bind]
    | ok a => simpa [bind, Except.bind] using (hk a rfl).fails f

/-- A result may be turned into another. -/
protected theorem map (hx : Follows x C) (g : α → β) :
    Follows (do let a ← x; return g a) C := by
  simpa using hx.bind fun a _ => .pure (g a)

/-- A list may be replaced by one that says the same. -/
protected theorem congr (hx : Follows x C) (hall : AllHold C ↔ AllHold D)
    (hfails : ∀ f, FirstFails C f ↔ FirstFails D f) : Follows x D where
  passes := hx.passes.trans hall
  fails f := (hx.fails f).trans (hfails f)

/-- A requirement that is met may be left out, wherever it stands. -/
theorem leaveOut (hx : Follows x (C ++ requires p reason :: D)) (hp : p) :
    Follows x (C ++ D) := by
  refine hx.congr ?_ fun f => ?_
  · simp [hp]
  · simp [firstFails_append, hp]

/-- Conditions that are refused for one reason are one condition. -/
protected theorem join (hx : Follows x (requires p reason :: requires q reason :: C)) :
    Follows x (requires (p ∧ q) reason :: C) := by
  refine hx.congr ?_ fun f => ?_
  · simp [and_assoc]
  · simp only [firstFails_cons, fails_requires, holds_requires]
    by_cases hp : p <;> simp [hp]

end Follows

/-! ## Steps

A step that is started on a record goes by conditions as its result does. -/

namespace Follows

variable {σ τ α β : Type} {C D : List Condition} {s : σ}

theorem of_result {step : Action σ α} (hok : (∃ a s', step s = .ok a s') ↔ AllHold C)
    (herror : ∀ f, (∃ s', step s = .error f s') ↔ FirstFails C f) :
    Follows (step.result s) C where
  passes := by
    rw [← hok, Action.result]
    cases step s <;> simp
  fails f := by
    rw [← herror, Action.result]
    cases step s <;> simp [eq_comm]

/-- A step that asks for one thing, and has one fault. -/
theorem single_step {step : Action σ α} {p : Prop} {fault : Fault}
    (hok : (∃ a s', step s = .ok a s') ↔ p) (hfault : ∀ f s', step s = .error f s' → f = fault) :
    Follows (step.result s) [.of p fault] := by
  refine .single ?_ fun f h => ?_
  · rw [← hok, Action.result]
    cases step s <;> simp
  · cases hs : step s with
    | ok a s' => rw [Action.result_of_ok hs] at h; cases h
    | error e s' =>
      rw [Action.result_of_error hs] at h
      cases h
      exact hfault _ _ hs

/-- **A step gives a result exactly if all its conditions hold.** -/
theorem step_eq_ok {step : Action σ α} (h : Follows (step.result s) C) :
    (∃ a s', step s = .ok a s') ↔ AllHold C := by
  rw [← h.passes, Action.result]
  cases step s <;> simp

/-- **A step fails as the first of its conditions that does not hold.** -/
theorem step_eq_error {step : Action σ α} (h : Follows (step.result s) C) (f : Fault) :
    (∃ s', step s = .error f s') ↔ FirstFails C f := by
  rw [← h.fails, Action.result]
  cases step s <;> simp [eq_comm]

/-- **A step that goes by a list is known exactly**, once it is known what it leaves: this result
and this record where all conditions hold, and the old record where it fails. -/
theorem exactly {step : Action σ α} {result : α} {left : σ} (h : Follows (step.result s) C)
    (hok : ∀ a s', step s = .ok a s' → a = result ∧ s' = left)
    (herror : ∀ f s', step s = .error f s' → s' = s) :
    (∀ a s', step s = .ok a s' ↔ AllHold C ∧ a = result ∧ s' = left) ∧
      ∀ f s', step s = .error f s' ↔ FirstFails C f ∧ s' = s := by
  refine ⟨fun a s' => ?_, fun f s' => ?_⟩
  · rw [← h.step_eq_ok]
    constructor
    · exact fun hstep => ⟨⟨a, s', hstep⟩, hok a s' hstep⟩
    · rintro ⟨⟨b, s'', hstep⟩, rfl, rfl⟩
      obtain ⟨rfl, rfl⟩ := hok b s'' hstep
      exact hstep
  · rw [← h.step_eq_error]
    constructor
    · exact fun hstep => ⟨⟨s', hstep⟩, herror f s' hstep⟩
    · rintro ⟨⟨s'', hstep⟩, rfl⟩
      obtain rfl := herror f s'' hstep
      exact hstep

/-- **Steps one after the other** go by one list behind the other. -/
protected theorem step {x : Action σ α} {k : α → Action σ β} (hx : Follows (x.result s) C)
    (hk : ∀ a s', x s = .ok a s' → Follows ((k a).result s') D) :
    Follows ((x >>= k).result s) (C ++ D) := by
  refine of_result ?_ fun f => ?_
  · rw [allHold_append, ← hx.step_eq_ok]
    constructor
    · rintro ⟨b, s'', h⟩
      obtain ⟨a, s', ha, hb⟩ := bind_eq_ok.1 h
      exact ⟨⟨a, s', ha⟩, (hk a s' ha).step_eq_ok.1 ⟨b, s'', hb⟩⟩
    · rintro ⟨⟨a, s', ha⟩, hD⟩
      obtain ⟨b, s'', hb⟩ := (hk a s' ha).step_eq_ok.2 hD
      exact ⟨b, s'', bind_eq_ok.2 ⟨a, s', ha, hb⟩⟩
  · rw [firstFails_append, ← hx.step_eq_ok, ← hx.step_eq_error]
    simp only [bind_eq_error, exists_or]
    refine or_congr_right ?_
    constructor
    · rintro ⟨s'', a, s', ha, hf⟩
      exact ⟨⟨a, s', ha⟩, ((hk a s' ha).step_eq_error f).1 ⟨s'', hf⟩⟩
    · rintro ⟨⟨a, s', ha⟩, hD⟩
      obtain ⟨s'', hf⟩ := ((hk a s' ha).step_eq_error f).2 hD
      exact ⟨s'', a, s', ha, hf⟩

/-- A check within a step. -/
protected theorem lift {x : Except Fault α} {k : α → Action σ β} (hx : Follows x C)
    (hk : ∀ a, x = .ok a → Follows ((k a).result s) D) :
    Follows (((liftM x : Action σ α) >>= k).result s) (C ++ D) := by
  refine .step (of_result ?_ fun f => ?_) fun a s' h => ?_
  · simpa using hx.passes
  · simpa using hx.fails f
  · obtain ⟨hx, rfl⟩ := lift_eq_ok.1 h
    exact hk a hx

/-- A requirement within a step. -/
protected theorem demand {p : Prop} [Decidable p] {reason : Refusal} {k : Unit → Action σ β}
    (hk : p → Follows ((k ()).result s) D) :
    Follows (((require p reason : Action σ Unit) >>= k).result s) (requires p reason :: D) := by
  rw [← lift_require]
  exact .lift .require fun _ h => hk (require_eq_ok.1 h)

/-- A step on a part goes by the conditions that it goes by on the part. -/
protected theorem on {part : σ → τ} {putBack : τ → σ → σ} {step : Action τ α}
    (h : Follows (step.result (part s)) C) : Follows ((step.on part putBack).result s) C := by
  refine of_result ?_ fun f => ?_
  · rw [← h.step_eq_ok]
    simp only [Action.on_eq_ok]
    exact exists_congr fun a => ⟨fun ⟨_, t, ht, _⟩ => ⟨t, ht⟩, fun ⟨t, ht⟩ => ⟨_, t, ht, rfl⟩⟩
  · rw [← h.step_eq_error]
    simp only [Action.on_eq_error]
    exact ⟨fun ⟨_, t, ht, _⟩ => ⟨t, ht⟩, fun ⟨t, ht⟩ => ⟨_, t, ht, rfl⟩⟩

/-- Nothing is asked by a step that gives a result in any case. -/
theorem unconditional {step : Action σ α} {a : α} {s' : σ} (h : step s = .ok a s') :
    Follows (step.result s) [] := by
  rw [Action.result_of_ok h]
  exact .pure a

end Follows
end QuorumRelay
