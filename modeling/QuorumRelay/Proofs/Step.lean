import Mathlib.Algebra.GroupWithZero.Nat
import Mathlib.Data.List.Forall2
import QuorumRelay.Action
import QuorumRelay.Amount

/-!
# Taking steps apart

A step is a chain of smaller ones, and a statement about a whole step is read off
what its parts did.  The lemmas here open a step at its front: each says exactly
when one building block gives a result and what it leaves behind.  Everything
that is proved about a record later on starts by rewriting with them.

Three kinds of building blocks occur: checks that look at nothing but values
(`Except`), steps on a record (`Action`), and steps on a part of a record
(`Action.on`).
-/

namespace QuorumRelay

variable {ε σ τ α β : Type}

/-! ## Lists -/

/-- What stands at one place of two lists that go side by side. -/
theorem forall₂_getElem? {R : α → β → Prop} {as : List α} {bs : List β} {k : Nat} {a : α}
    (h : List.Forall₂ R as bs) (ha : as[k]? = some a) : ∃ b, bs[k]? = some b ∧ R a b := by
  induction h generalizing k with
  | nil => cases ha
  | cons hab _ ih =>
    cases k with
    | zero =>
      cases ha
      exact ⟨_, rfl, hab⟩
    | succ k => exact ih ha

/-- Replacing an element of a list replaces its part of a sum. -/
theorem sum_map_set (g : α → Nat) {as : List α} {n : Nat} {a b : α}
    (h : as[n]? = some a) : ((as.set n b).map g).sum + g a = (as.map g).sum + g b := by
  induction as generalizing n with
  | nil => simp at h
  | cons c as ih =>
    cases n with
    | zero =>
      obtain rfl : c = a := by simpa using h
      simp only [List.set_cons_zero, List.map_cons, List.sum_cons]
      omega
    | succ n =>
      have htail := ih (n := n) (by simpa using h)
      simp only [List.set_cons_succ, List.map_cons, List.sum_cons]
      omega

/-- An element's part is not more than the sum. -/
theorem le_sum_map (g : α → Nat) {as : List α} {a : α} (h : a ∈ as) :
    g a ≤ (as.map g).sum := by
  obtain ⟨before, behind, rfl⟩ := List.append_of_mem h
  simp only [List.map_append, List.map_cons, List.sum_append, List.sum_cons]
  omega

/-! ## Checks -/

/-- A chain of checks passes exactly when each of its parts does. -/
theorem except_bind_eq_ok {x : Except ε α} {f : α → Except ε β} {b : β} :
    x >>= f = .ok b ↔ ∃ a, x = .ok a ∧ f a = .ok b := by
  cases x with
  | error e =>
    constructor
    · intro h
      exact absurd h (by simp [bind, Except.bind])
    · rintro ⟨a, h, -⟩
      exact absurd h (by simp)
  | ok a => simp [bind, Except.bind]

@[simp] theorem except_pure_eq_ok {a b : α} : (pure a : Except ε α) = .ok b ↔ a = b := by
  simp [pure, Except.pure]

/-- A requirement passes exactly when it holds. -/
@[simp] theorem require_eq_ok {p : Prop} [Decidable p] {reason : Refusal} {u : Unit} :
    (require p reason : Except Fault Unit) = .ok u ↔ p := by
  by_cases h : p
  · simp [require, h, pure, Except.pure]
  · simp [require, h, throw, throwThe, MonadExceptOf.throw]

/-- A requirement that fails gives its own reason and no other. -/
theorem require_eq_error {p : Prop} [Decidable p] {reason : Refusal} {f : Fault} :
    (require p reason : Except Fault Unit) = .error f ↔ ¬ p ∧ f = .refused reason := by
  by_cases h : p
  · simp [require, h, pure, Except.pure]
  · simp [require, h, throw, throwThe, MonadExceptOf.throw, eq_comm]

/-- A check on every element of a list passes exactly when each of them passes. -/
theorem except_mapM_eq_ok {f : α → Except ε β} {as : List α} {bs : List β} :
    as.mapM f = .ok bs ↔ List.Forall₂ (fun a b => f a = .ok b) as bs := by
  induction as generalizing bs with
  | nil => rw [List.mapM_nil, except_pure_eq_ok, List.forall₂_nil_left_iff, eq_comm]
  | cons a as ih =>
    rw [List.mapM_cons, List.forall₂_cons_left_iff]
    simp only [except_bind_eq_ok, except_pure_eq_ok, ih]
    constructor
    · rintro ⟨b, hb, bs, hbs, rfl⟩
      exact ⟨b, bs, hb, hbs, rfl⟩
    · rintro ⟨b, bs, hb, hbs, rfl⟩
      exact ⟨b, hb, bs, hbs, rfl⟩

/-- A check on every element of a list, without a result, passes exactly when each of them
passes. -/
theorem except_forM_eq_ok {x : α → Except Fault PUnit} {as : List α} {u : PUnit} :
    as.forM x = .ok u ↔ ∀ a ∈ as, x a = .ok () := by
  induction as with
  | nil => simp [List.forM_nil]
  | cons a as ih =>
    show (x a >>= fun _ => as.forM x) = .ok u ↔ _
    rw [except_bind_eq_ok, List.forall_mem_cons]
    simp only [ih]
    constructor
    · rintro ⟨_, ha, has⟩
      exact ⟨ha, has⟩
    · rintro ⟨ha, has⟩
      exact ⟨⟨⟩, ha, has⟩

/-- What a check on every element found, it found at one of them. -/
theorem exists_of_mem_except_mapM {f : α → Except ε β} {as : List α} {bs : List β} {b : β}
    (h : as.mapM f = .ok bs) (hb : b ∈ bs) : ∃ a ∈ as, f a = .ok b := by
  induction except_mapM_eq_ok.1 h with
  | nil => cases hb
  | cons hhead htail ih =>
    rcases List.mem_cons.1 hb with rfl | hb
    · exact ⟨_, List.mem_cons_self, hhead⟩
    · obtain ⟨a, ha, hfa⟩ := ih (except_mapM_eq_ok.2 htail) hb
      exact ⟨a, List.mem_cons_of_mem _ ha, hfa⟩

/-! ## Steps -/

/-- A chain of steps gives a result exactly when each of its parts does. -/
theorem bind_eq_ok {x : EStateM ε σ α} {f : α → EStateM ε σ β} {s s' : σ} {b : β} :
    (x >>= f) s = .ok b s' ↔ ∃ a s₁, x s = .ok a s₁ ∧ f a s₁ = .ok b s' := by
  show EStateM.bind x f s = .ok b s' ↔ _
  unfold EStateM.bind
  cases x s with
  | ok a s₁ => exact ⟨fun h => ⟨a, s₁, rfl, h⟩, fun ⟨_, _, h, h'⟩ => by cases h; exact h'⟩
  | error e s₁ => simp

/-- A chain of steps fails at its first part, or in what follows it. -/
theorem bind_eq_error {x : EStateM ε σ α} {f : α → EStateM ε σ β} {s s' : σ} {e : ε} :
    (x >>= f) s = .error e s' ↔
      x s = .error e s' ∨ ∃ a s₁, x s = .ok a s₁ ∧ f a s₁ = .error e s' := by
  show EStateM.bind x f s = .error e s' ↔ _
  unfold EStateM.bind
  cases x s with
  | ok a s₁ =>
    constructor
    · exact fun h => Or.inr ⟨a, s₁, rfl, h⟩
    · rintro (h | ⟨_, _, h, h'⟩)
      · cases h
      · cases h
        exact h'
  | error f s₁ => simp

/-! ### What stands at the front

Reading and writing the record give a result for certain, so they are run
(`get_bind`, `set_bind`, `modify_bind`).  A check leaves the record as it is, so
it only adds what it found (`lift_bind_eq_ok`, `require_bind_eq_ok`). -/

@[simp] theorem get_bind {f : σ → EStateM ε σ β} {s : σ} : (get >>= f) s = f s s := rfl

@[simp] theorem set_bind {t s : σ} {f : PUnit → EStateM ε σ β} :
    ((set t : EStateM ε σ PUnit) >>= f) s = f ⟨⟩ t := rfl

@[simp] theorem modify_bind {g : σ → σ} {s : σ} {f : PUnit → EStateM ε σ β} :
    ((modify g : EStateM ε σ PUnit) >>= f) s = f ⟨⟩ (g s) := rfl

@[simp] theorem throw_bind {e : ε} {s : σ} {f : α → EStateM ε σ β} :
    ((throw e : EStateM ε σ α) >>= f) s = .error e s := rfl

@[simp] theorem pure_eq_ok {a b : α} {s s' : σ} :
    (pure a : EStateM ε σ α) s = .ok b s' ↔ a = b ∧ s = s' := by
  show EStateM.Result.ok a s = .ok b s' ↔ _
  simp

@[simp] theorem pure_ne_error {a : α} {s s' : σ} {e : ε} :
    ¬ (pure a : EStateM ε σ α) s = .error e s' := by
  show ¬ EStateM.Result.ok a s = .error e s'
  simp

@[simp] theorem set_eq_ok {t s s' : σ} {u : PUnit} :
    (set t : EStateM ε σ PUnit) s = .ok u s' ↔ t = s' := by
  show EStateM.Result.ok PUnit.unit t = .ok u s' ↔ _
  simp

@[simp] theorem set_ne_error {t s s' : σ} {e : ε} :
    ¬ (set t : EStateM ε σ PUnit) s = .error e s' := by
  show ¬ EStateM.Result.ok PUnit.unit t = .error e s'
  simp

@[simp] theorem modify_eq_ok {f : σ → σ} {s s' : σ} {u : PUnit} :
    (modify f : EStateM ε σ PUnit) s = .ok u s' ↔ f s = s' := by
  show EStateM.Result.ok PUnit.unit (f s) = .ok u s' ↔ _
  simp

@[simp] theorem modify_ne_error {f : σ → σ} {s s' : σ} {e : ε} :
    ¬ (modify f : EStateM ε σ PUnit) s = .error e s' := by
  show ¬ EStateM.Result.ok PUnit.unit (f s) = .error e s'
  simp

@[simp] theorem throw_ne_ok {f : ε} {s s' : σ} {a : α} :
    ¬ (throw f : EStateM ε σ α) s = .ok a s' := by
  show ¬ EStateM.Result.error f s = .ok a s'
  simp

@[simp] theorem throw_eq_error {f e : ε} {s s' : σ} :
    (throw f : EStateM ε σ α) s = .error e s' ↔ f = e ∧ s = s' := by
  show EStateM.Result.error f s = .error e s' ↔ _
  simp

/-- A check within a step looks at values only, so the record stays. -/
@[simp] theorem lift_eq_ok {x : Except Fault α} {a : α} {s s' : σ} :
    (liftM x : Action σ α) s = .ok a s' ↔ x = .ok a ∧ s = s' := by
  cases x with
  | ok b =>
    show EStateM.Result.ok b s = .ok a s' ↔ _
    simp
  | error e =>
    show EStateM.Result.error e s = .ok a s' ↔ _
    simp

@[simp] theorem lift_eq_error {x : Except Fault α} {e : Fault} {s s' : σ} :
    (liftM x : Action σ α) s = .error e s' ↔ x = .error e ∧ s = s' := by
  cases x with
  | ok b =>
    show EStateM.Result.ok b s = .error e s' ↔ _
    simp
  | error f =>
    show EStateM.Result.error f s = .error e s' ↔ _
    simp

theorem lift_bind_eq_ok {x : Except Fault α} {f : α → Action σ β} {s s' : σ} {b : β} :
    ((liftM x : Action σ α) >>= f) s = .ok b s' ↔ ∃ a, x = .ok a ∧ f a s = .ok b s' := by
  rw [bind_eq_ok]
  constructor
  · rintro ⟨a, _, hlift, hf⟩
    obtain ⟨hx, rfl⟩ := lift_eq_ok.1 hlift
    exact ⟨a, hx, hf⟩
  · rintro ⟨a, hx, hf⟩
    exact ⟨a, s, lift_eq_ok.2 ⟨hx, rfl⟩, hf⟩

theorem lift_bind_eq_error {x : Except Fault α} {f : α → Action σ β} {s s' : σ} {e : Fault} :
    ((liftM x : Action σ α) >>= f) s = .error e s' ↔
      (x = .error e ∧ s = s') ∨ ∃ a, x = .ok a ∧ f a s = .error e s' := by
  rw [bind_eq_error, lift_eq_error]
  refine or_congr_right ⟨?_, ?_⟩
  · rintro ⟨a, _, hlift, hf⟩
    obtain ⟨hx, rfl⟩ := lift_eq_ok.1 hlift
    exact ⟨a, hx, hf⟩
  · rintro ⟨a, hx, hf⟩
    exact ⟨a, s, lift_eq_ok.2 ⟨hx, rfl⟩, hf⟩

@[simp] theorem require_apply_eq_ok {p : Prop} [Decidable p] {reason : Refusal} {s s' : σ}
    {u : Unit} : (require p reason : Action σ Unit) s = .ok u s' ↔ p ∧ s = s' := by
  by_cases h : p
  · simp [require, h]
  · simp [require, h]

@[simp] theorem require_apply_eq_error {p : Prop} [Decidable p] {reason : Refusal} {s s' : σ}
    {e : Fault} : (require p reason : Action σ Unit) s = .error e s' ↔
      ¬ p ∧ e = .refused reason ∧ s = s' := by
  by_cases h : p
  · simp [require, h]
  · simp [require, h, throw_eq_error, eq_comm (a := e)]

theorem require_bind_eq_ok {p : Prop} [Decidable p] {reason : Refusal} {f : Unit → Action σ β}
    {s s' : σ} {b : β} :
    ((require p reason : Action σ Unit) >>= f) s = .ok b s' ↔ p ∧ f () s = .ok b s' := by
  rw [bind_eq_ok]
  constructor
  · rintro ⟨_, _, hreq, hf⟩
    obtain ⟨hp, rfl⟩ := require_apply_eq_ok.1 hreq
    exact ⟨hp, hf⟩
  · rintro ⟨hp, hf⟩
    exact ⟨(), s, require_apply_eq_ok.2 ⟨hp, rfl⟩, hf⟩

theorem require_bind_eq_error {p : Prop} [Decidable p] {reason : Refusal}
    {f : Unit → Action σ β} {s s' : σ} {e : Fault} :
    ((require p reason : Action σ Unit) >>= f) s = .error e s' ↔
      (¬ p ∧ e = .refused reason ∧ s = s') ∨ p ∧ f () s = .error e s' := by
  rw [bind_eq_error, require_apply_eq_error]
  refine or_congr_right ⟨?_, ?_⟩
  · rintro ⟨_, _, hreq, hf⟩
    obtain ⟨hp, rfl⟩ := require_apply_eq_ok.1 hreq
    exact ⟨hp, hf⟩
  · rintro ⟨hp, hf⟩
    exact ⟨(), s, require_apply_eq_ok.2 ⟨hp, rfl⟩, hf⟩

/-! ### Steps whose result is not looked at -/

theorem discard_eq_ok {x : EStateM ε σ α} {s s' : σ} {u : PUnit} :
    discard x s = .ok u s' ↔ ∃ a, x s = .ok a s' := by
  show EStateM.map _ x s = .ok u s' ↔ _
  unfold EStateM.map
  cases x s <;> simp

theorem discard_eq_error {x : EStateM ε σ α} {s s' : σ} {e : ε} :
    discard x s = .error e s' ↔ x s = .error e s' := by
  show EStateM.map _ x s = .error e s' ↔ _
  unfold EStateM.map
  cases x s <;> simp

/-! ### Checks in a row -/

/-- Checks may be made all at once before a step, or one after the other. -/
theorem lift_bind_bind {γ : Type} (x : Except Fault α) (f : α → Except Fault β)
    (g : β → Action σ γ) :
    ((liftM (x >>= f) : Action σ β) >>= g) =
      ((liftM x : Action σ α) >>= fun a => (liftM (f a) : Action σ β) >>= g) := by
  funext s
  cases x <;> rfl

theorem lift_pure_bind (a : α) (g : α → Action σ β) :
    ((liftM (pure a : Except Fault α) : Action σ α) >>= g) = g a := rfl

theorem lift_require (p : Prop) [Decidable p] (reason : Refusal) :
    (liftM (require p reason : Except Fault Unit) : Action σ Unit) = require p reason := by
  funext s
  by_cases h : p
  · simp only [require, if_pos h]
    rfl
  · simp only [require, if_neg h]
    rfl

/-! ### Lists -/

theorem mapM_cons_eq_ok {f : α → EStateM ε σ β} {a : α} {as : List α} {bs : List β} {s s' : σ} :
    (a :: as).mapM f s = .ok bs s' ↔
      ∃ b s₁ rest, f a s = .ok b s₁ ∧ as.mapM f s₁ = .ok rest s' ∧ bs = b :: rest := by
  simp only [List.mapM_cons, bind_eq_ok, pure_eq_ok]
  constructor
  · rintro ⟨b, s₁, hb, rest, _, hrest, rfl, rfl⟩
    exact ⟨b, s₁, rest, hb, hrest, rfl⟩
  · rintro ⟨b, s₁, rest, hb, hrest, rfl⟩
    exact ⟨b, s₁, hb, rest, s', hrest, rfl, rfl⟩

@[simp] theorem mapM_nil_eq_ok {f : α → EStateM ε σ β} {bs : List β} {s s' : σ} :
    ([] : List α).mapM f s = .ok bs s' ↔ bs = [] ∧ s' = s := by
  simp only [List.mapM_nil, pure_eq_ok, eq_comm]

/-- Checks on the elements of a list may be made at once. -/
theorem lift_forM (x : α → Except Fault PUnit) (as : List α) :
    (liftM (as.forM x) : Action σ PUnit) = as.forM fun a => (liftM (x a) : Action σ PUnit) := by
  funext s
  induction as with
  | nil => rfl
  | cons a as ih =>
    show (liftM (x a >>= fun _ => as.forM x) : Action σ PUnit) s =
      ((liftM (x a) : Action σ PUnit) >>= fun _ => as.forM _) s
    cases hx : x a with
    | error e => rfl
    | ok u => exact ih

/-! ### Failing before anything is written

A step whose checks all come first fails with the record as it was, up to the
check that is of interest; what comes after that check does not matter. -/

theorem eq_or_of_lift_bind_eq_error {x : Except Fault α} {f : α → Action σ β} {s s' : σ}
    {e : Fault} {P : Prop} (h : ((liftM x : Action σ α) >>= f) s = .error e s')
    (hrest : ∀ a, x = .ok a → f a s = .error e s' → s' = s ∨ P) : s' = s ∨ P := by
  rcases lift_bind_eq_error.1 h with ⟨-, rfl⟩ | ⟨a, hx, hf⟩
  · exact Or.inl rfl
  · exact hrest a hx hf

theorem eq_or_of_require_bind_eq_error {p : Prop} [Decidable p] {reason : Refusal}
    {f : Unit → Action σ β} {s s' : σ} {e : Fault} {P : Prop}
    (h : ((require p reason : Action σ Unit) >>= f) s = .error e s')
    (hrest : f () s = .error e s' → s' = s ∨ P) : s' = s ∨ P := by
  rcases require_bind_eq_error.1 h with ⟨-, -, rfl⟩ | ⟨-, hf⟩
  · exact Or.inl rfl
  · exact hrest hf

namespace Action

/-! ## Steps on a part -/

/-- A step on a part gives what it gives on the part alone, which is put back. -/
theorem on_eq_ok {part : σ → τ} {putBack : τ → σ → σ} {step : Action τ α} {s s' : σ} {a : α} :
    step.on part putBack s = .ok a s' ↔ ∃ t, step (part s) = .ok a t ∧ s' = putBack t s := by
  unfold Action.on
  cases step (part s) with
  | ok b t =>
    constructor
    · intro h
      cases h
      exact ⟨t, rfl, rfl⟩
    · rintro ⟨_, h, rfl⟩
      cases h
      rfl
  | error e t => simp

/-- A step on a part that fails has its part put back all the same. -/
theorem on_eq_error {part : σ → τ} {putBack : τ → σ → σ} {step : Action τ α} {s s' : σ}
    {e : Fault} :
    step.on part putBack s = .error e s' ↔ ∃ t, step (part s) = .error e t ∧ s' = putBack t s := by
  unfold Action.on
  cases step (part s) with
  | ok b t => simp
  | error f t =>
    constructor
    · intro h
      cases h
      exact ⟨t, rfl, rfl⟩
    · rintro ⟨_, h, rfl⟩
      cases h
      rfl

/-! ## Outcomes -/

/-- The record after a step that gives a result. -/
theorem after_of_ok {step : Action σ α} {s t : σ} {a : α} (h : step s = .ok a t) :
    step.after s = t := by
  unfold Action.after
  rw [h]

/-- The record after a step that fails. -/
theorem after_of_error {step : Action σ α} {s t : σ} {e : Fault} (h : step s = .error e t) :
    step.after s = t := by
  unfold Action.after
  rw [h]

theorem result_of_ok {step : Action σ α} {s t : σ} {a : α} (h : step s = .ok a t) :
    step.result s = .ok a := by
  unfold Action.result
  rw [h]

theorem result_of_error {step : Action σ α} {s t : σ} {e : Fault} (h : step s = .error e t) :
    step.result s = .error e := by
  unfold Action.result
  rw [h]

/-- A step on a part leaves the record with what it left of the part. -/
theorem after_bind_of_ok {step : Action σ α} {next : α → Action σ β} {s t : σ} {a : α}
    (h : step s = .ok a t) : (step >>= next).after s = (next a).after t := by
  have hbind : (step >>= next) s = next a t := by
    show EStateM.bind step next s = next a t
    unfold EStateM.bind
    rw [h]
  unfold after
  rw [hbind]

theorem after_bind_of_error {step : Action σ α} {next : α → Action σ β} {s t : σ} {e : Fault}
    (h : step s = .error e t) : (step >>= next).after s = t :=
  after_of_error (bind_eq_error.2 (.inl h))

/-- A step that hands on another result gives one when the step does, and fails with it. -/
theorem bind_pure_eq_ok {step : Action σ α} {g : α → β} {s s' : σ} {b : β} :
    (do let a ← step; return g a : Action σ β) s = .ok b s' ↔
      ∃ a, step s = .ok a s' ∧ g a = b := by
  rw [bind_eq_ok]
  constructor
  · rintro ⟨a, _, hstep, hpure⟩
    obtain ⟨rfl, rfl⟩ := pure_eq_ok.1 hpure
    exact ⟨a, hstep, rfl⟩
  · rintro ⟨a, hstep, rfl⟩
    exact ⟨a, s', hstep, pure_eq_ok.2 ⟨rfl, rfl⟩⟩

theorem bind_pure_eq_error {step : Action σ α} {g : α → β} {s s' : σ} {e : Fault} :
    (do let a ← step; return g a : Action σ β) s = .error e s' ↔ step s = .error e s' := by
  simp only [bind_eq_error, pure_ne_error, and_false, exists_false, or_false]

/-- Handing on another result changes nothing in the record. -/
theorem after_bind_pure (step : Action σ α) (g : α → β) (s : σ) :
    (do let a ← step; return g a : Action σ β).after s = step.after s := by
  cases h : step s with
  | ok a t => rw [after_bind_of_ok h, after_of_ok h, after_of_ok (pure_eq_ok.2 ⟨rfl, rfl⟩)]
  | error e t => rw [after_bind_of_error h, after_of_error h]

theorem result_bind_pure (step : Action σ α) (g : α → β) (s : σ) :
    (do let a ← step; return g a : Action σ β).result s = (step.result s).map g := by
  cases h : step s with
  | ok a t =>
    rw [result_of_ok h, result_of_ok (bind_pure_eq_ok.2 ⟨a, h, rfl⟩)]
    rfl
  | error e t =>
    rw [result_of_error h, result_of_error (bind_pure_eq_error.2 h)]
    rfl

theorem after_on (part : σ → τ) (putBack : τ → σ → σ) (step : Action τ α) (s : σ) :
    (step.on part putBack).after s = putBack (step.after (part s)) s := by
  unfold Action.after Action.on
  cases step (part s) <;> rfl

/-- A property of the record that holds after a step whatever its outcome. -/
theorem after_induct {step : Action σ α} {s : σ} {P : σ → Prop}
    (hok : ∀ a t, step s = .ok a t → P t) (herr : ∀ e t, step s = .error e t → P t) :
    P (step.after s) := by
  cases h : step s with
  | ok a t => exact (after_of_ok h).symm ▸ hok a t h
  | error e t => exact (after_of_error h).symm ▸ herr e t h

end Action

namespace Amount

/-! ## Sums, products and differences -/

theorem plus_eq_ok {a b c : Amount} : a.plus b = .ok c ↔ c.toNat = a.toNat + b.toNat :=
  fit_eq_ok_iff

/-- A sum that 64 bits hold is computed. -/
theorem exists_plus {a b : Amount} (h : a.toNat + b.toNat < UInt64.size) :
    ∃ c, a.plus b = .ok c :=
  ⟨UInt64.ofNat (a.toNat + b.toNat), plus_eq_ok.2 (UInt64.toNat_ofNat_of_lt' h)⟩

theorem min_le_right (a b : Amount) : min a b ≤ b := by
  show (if a ≤ b then a else b) ≤ b
  split
  · assumption
  · exact UInt64.le_refl b

theorem toNat_min (a b : Amount) : (min a b).toNat = min a.toNat b.toNat := by
  rw [show min a b = if a ≤ b then a else b from rfl, Nat.min_def]
  simp only [UInt64.le_iff_toNat_le]
  split <;> rfl

/-- A sum with a part of an amount is computed where the sum with the whole amount fits. -/
theorem exists_plus_min {a b c : Amount} (h : a.toNat + c.toNat < UInt64.size) :
    ∃ sum, a.plus (min b c) = .ok sum := by
  have hle := UInt64.le_iff_toNat_le.1 (min_le_right b c)
  exact exists_plus (by omega)

theorem plus_eq_error {a b : Amount} {e : Fault} :
    a.plus b = .error e ↔ UInt64.size ≤ a.toNat + b.toNat ∧ e = .refused .arithmeticOverflow :=
  fit_eq_error_iff

theorem minus_eq_ok {a b c : Amount} : a.minus b = .ok c ↔ b ≤ a ∧ c = a - b := by
  unfold minus
  by_cases h : b ≤ a
  · simp [h, eq_comm]
  · simp [h]

/-- A difference that was computed is the true one. -/
theorem toNat_of_minus {a b c : Amount} (h : a.minus b = .ok c) :
    c.toNat + b.toNat = a.toNat := by
  obtain ⟨hle, rfl⟩ := minus_eq_ok.1 h
  have hle' : b.toNat ≤ a.toNat := UInt64.le_iff_toNat_le.1 hle
  rw [UInt64.toNat_sub_of_le _ _ hle]
  omega

theorem toNat_sub_add {a b : Amount} (h : b ≤ a) : (a - b).toNat + b.toNat = a.toNat :=
  toNat_of_minus (minus_eq_ok.2 ⟨h, rfl⟩)

theorem minus_eq_error {a b : Amount} {e : Fault} :
    a.minus b = .error e ↔ a < b ∧ e = .refused .arithmeticOverflow := by
  unfold minus
  by_cases h : b ≤ a
  · have hn : ¬ a < b := UInt64.not_lt.2 h
    simp [h, hn]
  · have hn : a < b := UInt64.not_le.1 h
    simp [h, hn, eq_comm]

theorem toNat_monus (a b : Amount) : (a.monus b).toNat = a.toNat - b.toNat := by
  unfold monus
  by_cases h : b ≤ a
  · rw [if_pos h, UInt64.toNat_sub_of_le _ _ h]
  · have hlt : a.toNat < b.toNat := UInt64.lt_iff_toNat_lt.1 (UInt64.not_le.1 h)
    rw [if_neg h, UInt64.toNat_zero]
    omega

end Amount

end QuorumRelay
