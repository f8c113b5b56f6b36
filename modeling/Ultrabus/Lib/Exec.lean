import Mathlib.Order.Filter.AtTopBot.Basic

/-! # Outcomes of fuelled computations

A computation that may loop is run with a budget of steps.  It returns, throws, or
is still running when the budget is spent.  `Settles` is the statement that a
computation terminates: from some budget on, its outcome is the given one. -/

/-- Outcome of running a computation on a bounded budget. -/
inductive Exec (ε : Type*) (α : Type) where
  | ok (value : α)
  | throw (error : ε)
  | timeout
deriving DecidableEq, Repr

namespace Exec

open Filter (atTop)

variable {ε : Type*} {α β : Type}

protected def bind (x : Exec ε α) (f : α → Exec ε β) : Exec ε β :=
  match x with
  | .ok value => f value
  | .throw error => .throw error
  | .timeout => .timeout

instance : Monad (Exec ε) where
  pure := Exec.ok
  bind := Exec.bind

/-- A computation that needs no budget, as an `Exec`. -/
def ofExcept : Except ε α → Exec ε α
  | .ok value => .ok value
  | .error error => .throw error

@[simp] theorem pure_eq (value : α) : (pure value : Exec ε α) = .ok value := rfl
@[simp] theorem ok_bind (value : α) (f : α → Exec ε β) : (Exec.ok value >>= f) = f value := rfl
@[simp] theorem throw_bind (error : ε) (f : α → Exec ε β) :
    (Exec.throw error >>= f) = .throw error := rfl
@[simp] theorem ofExcept_ok (value : α) : ofExcept (.ok value : Except ε α) = .ok value := rfl
@[simp] theorem ofExcept_error (error : ε) :
    ofExcept (.error error : Except ε α) = .throw error := rfl

theorem bind_eq_ok_iff {x : Exec ε α} {f : α → Exec ε β} {result : β} :
    (x >>= f) = .ok result ↔ ∃ value, x = .ok value ∧ f value = .ok result := by
  cases x with
  | ok value =>
    rw [ok_bind]
    refine ⟨fun h => ⟨value, rfl, h⟩, ?_⟩
    rintro ⟨_, ⟨⟩, h⟩
    exact h
  | throw error => exact ⟨nofun, nofun⟩
  | timeout => exact ⟨nofun, nofun⟩

theorem ofExcept_eq_ok_iff {x : Except ε α} {value : α} :
    ofExcept x = .ok value ↔ x = .ok value := by
  cases x <;> simp [ofExcept]

/-! ## Enough budget -/

/-- From some budget on, the outcome of `run` is the given one. -/
def Settles (run : Nat → Exec ε α) (outcome : Exec ε α) : Prop :=
  ∀ᶠ fuel in atTop, run fuel = outcome

/-- A function that spends one unit of its budget and goes on with the rest. -/
theorem eventually_succ {p : Nat → Prop} (h : ∀ᶠ fuel in atTop, p (fuel + 1)) :
    ∀ᶠ fuel in atTop, p fuel := by
  rw [← Filter.map_add_atTop_eq_nat 1]
  exact h

theorem Settles.unique {run : Nat → Exec ε α} {a b : Exec ε α}
    (ha : Settles run a) (hb : Settles run b) : a = b := by
  obtain ⟨fuel, hboth⟩ := (ha.and hb).exists
  exact hboth.1.symm.trans hboth.2

/-! ## More budget -/

/-- `y` is what becomes of `x` on a larger budget: the same, unless `x` was still running. -/
def Extends (x y : Exec ε α) : Prop := x ≠ .timeout → y = x

theorem Extends.refl (x : Exec ε α) : Extends x x := fun _ => rfl

theorem Extends.timeout (y : Exec ε α) : Extends .timeout y := fun h => absurd rfl h

theorem Extends.bind {x y : Exec ε α} {f g : α → Exec ε β} (hx : Extends x y)
    (hf : ∀ value, Extends (f value) (g value)) : Extends (x >>= f) (y >>= g) := by
  intro hne
  cases x with
  | ok value =>
    rw [hx (by simp)]
    exact hf value hne
  | throw error => rw [hx (by simp)]; rfl
  | timeout => exact absurd rfl hne

/-- What a computation has come to on some budget it comes to on every larger one. -/
theorem settles_of_extends {run : Nat → Exec ε α} {outcome : Exec ε α}
    (hmore : ∀ fuel, Extends (run fuel) (run (fuel + 1))) {fuel : Nat} (h : run fuel = outcome)
    (hne : outcome ≠ .timeout) : Settles run outcome := by
  refine Filter.eventually_atTop.mpr ⟨fuel, fun fuel' hle => ?_⟩
  induction hle with
  | refl => exact h
  | @step n _ ih =>
    have hrunning : run n ≠ .timeout := ih ▸ hne
    rw [hmore n hrunning, ih]

/-- A computation that has settled is either still running or there. -/
theorem Settles.eq_or_timeout {run : Nat → Exec ε α} {outcome : Exec ε α}
    (hmore : ∀ fuel, Extends (run fuel) (run (fuel + 1))) (h : Settles run outcome)
    (fuel : Nat) : run fuel = outcome ∨ run fuel = .timeout := by
  by_cases hrunning : run fuel = .timeout
  · exact .inr hrunning
  · exact .inl ((settles_of_extends hmore rfl hrunning).unique h)

end Exec
