import Mathlib.Logic.Basic

/-! # Triples for programs with a state and exceptions

`EStateM ε σ` programs keep what they did to the state when they throw.  A triple says what
holds of the state on either way out, so that one invariant can be carried through
operations that succeed and operations that give up half-way. -/

variable {ε σ α β : Type}

/-- From a state with `P`, the program returns with `Q` or throws in a state with `E`. -/
def Hoare (P : σ → Prop) (m : EStateM ε σ α) (Q : α → σ → Prop) (E : σ → Prop) : Prop :=
  ∀ s, P s →
    match m s with
    | .ok a s' => Q a s'
    | .error _ s' => E s'

/-- The state that a program leaves behind, whether it returns or throws. -/
def EStateM.finalState (m : EStateM ε σ α) (s : σ) : σ :=
  match m s with
  | .ok _ s' => s'
  | .error _ s' => s'

theorem EStateM.bind_of_ok {m : EStateM ε σ α} {f : α → EStateM ε σ β} {s s' : σ} {a : α}
    (h : m s = .ok a s') : (m >>= f) s = f a s' := by
  change EStateM.bind m f s = f a s'
  unfold EStateM.bind
  rw [h]

theorem EStateM.bind_of_error {m : EStateM ε σ α} {f : α → EStateM ε σ β} {s s' : σ} {e : ε}
    (h : m s = .error e s') : (m >>= f) s = .error e s' := by
  change EStateM.bind m f s = .error e s'
  unfold EStateM.bind
  rw [h]

namespace Hoare

variable {P P' : σ → Prop} {Q Q' : α → σ → Prop} {R : β → σ → Prop} {E E' : σ → Prop}

theorem finalState {I : σ → Prop} {m : EStateM ε σ α} (h : Hoare P m (fun _ => I) I) {s : σ}
    (hs : P s) : I (m.finalState s) := by
  have hm := h s hs
  unfold EStateM.finalState
  cases hrun : m s with
  | ok a s' => simpa [hrun] using hm
  | error e s' => simpa [hrun] using hm

theorem consequence {m : EStateM ε σ α} (h : Hoare P m Q E) (hP : ∀ s, P' s → P s)
    (hQ : ∀ a s, Q a s → Q' a s) (hE : ∀ s, E s → E' s) : Hoare P' m Q' E' := by
  intro s hs
  have hm := h s (hP s hs)
  cases hrun : m s with
  | ok a s' =>
    rw [hrun] at hm
    exact hQ a s' hm
  | error e s' =>
    rw [hrun] at hm
    exact hE s' hm

theorem pure (a : α) (h : ∀ s, P s → Q a s) : Hoare P (Pure.pure a : EStateM ε σ α) Q E := h

theorem throw (e : ε) (h : ∀ s, P s → E s) :
    Hoare P (MonadExcept.throw e : EStateM ε σ α) Q E := h

theorem update {Q : Unit → σ → Prop} (f : σ → σ) (h : ∀ s, P s → Q () (f s)) :
    Hoare P (modify f : EStateM ε σ Unit) Q E := h

theorem bind {m : EStateM ε σ α} {f : α → EStateM ε σ β} (hm : Hoare P m Q E)
    (hf : ∀ a, Hoare (Q a) (f a) R E) : Hoare P (m >>= f) R E := by
  intro s hs
  have hfirst := hm s hs
  cases hrun : m s with
  | ok a s' =>
    rw [hrun] at hfirst
    rw [EStateM.bind_of_ok hrun]
    exact hf a s' hfirst
  | error e s' =>
    rw [hrun] at hfirst
    rw [EStateM.bind_of_error hrun]
    exact hfirst

/-- A program that reads the state first. -/
theorem get_bind {f : σ → EStateM ε σ β} (h : ∀ s, P s → Hoare (· = s) (f s) R E) :
    Hoare P (get >>= f) R E :=
  fun s hs => h s hs s rfl

theorem ite {c : Prop} [Decidable c] {m m' : EStateM ε σ α} (hpos : c → Hoare P m Q E)
    (hneg : ¬ c → Hoare P m' Q E) : Hoare P (if c then m else m') Q E := by
  by_cases h : c
  · rw [if_pos h]
    exact hpos h
  · rw [if_neg h]
    exact hneg h

/-- A loop whose every turn keeps the invariant. -/
theorem forM {I : σ → Prop} {xs : List β} {f : β → EStateM ε σ Unit}
    (h : ∀ x ∈ xs, Hoare I (f x) (fun _ => I) E) :
    Hoare I (xs.forM f) (fun _ => I) E := by
  induction xs with
  | nil => exact Hoare.pure () fun s hs => hs
  | cons x xs ih =>
    exact Hoare.bind (h x List.mem_cons_self) fun _ =>
      ih fun x' hx' => h x' (List.mem_cons_of_mem x hx')

/-! ## Stores

The objects of one class, by their places in a list. -/

/-- Every object of the store has what `I` says. -/
def Each (I : σ → Prop) (store : List σ) : Prop := ∀ s ∈ store, I s

section Each

variable {I : σ → Prop} {store : List σ} {s : σ}

theorem Each.get (h : Each I store) {i : Nat} (hs : store[i]? = some s) : I s :=
  h s (List.mem_of_getElem? hs)

theorem Each.set (h : Each I store) (hs : I s) (i : Nat) : Each I (store.set i s) := by
  intro s' hs'
  obtain hold | rfl := List.mem_or_eq_of_mem_set hs'
  · exact h s' hold
  · exact hs

theorem Each.concat (h : Each I store) (hs : I s) : Each I (store ++ [s]) := by
  intro s' hs'
  obtain hold | hnew := List.mem_append.mp hs'
  · exact h s' hold
  · exact List.mem_singleton.mp hnew ▸ hs

end Each

end Hoare
