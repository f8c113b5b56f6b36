import Mathlib.Logic.Basic
import Mathlib.Data.List.Basic

/-! # Places in a tree

Values that are made of other values of their kind are read and changed at places: a place is
the list of the accesses that lead from the value to the part.  A change at a place leaves the
places apart from it as they were, and what holds of a value and of all its parts is kept by a
change that fits the place. -/

/-- How the parts of a value are read and replaced. -/
structure Accessors (V A : Type*) where
  get : V → A → Option V
  set : V → A → V → V
  get_set_self : ∀ v a part new, get v a = some part → get (set v a new) a = some new
  get_set_ne : ∀ v a b new, a ≠ b → get (set v a new) b = get v b

namespace Accessors

variable {V A : Type*} (T : Accessors V A)

def at? : V → List A → Option V
  | v, [] => some v
  | v, a :: rest =>
    match T.get v a with
    | none => none
    | some part => at? part rest

/-- The value with another one at a place; nothing changes where there is no such place. -/
def put (new : V) : V → List A → V
  | _, [] => new
  | v, a :: rest =>
    match T.get v a with
    | none => v
    | some part => T.set v a (put new part rest)

variable {T}

/-- Neither place is in the other. -/
def Apart (p q : List A) : Prop := ¬ p <+: q ∧ ¬ q <+: p

instance [DecidableEq A] (p q : List A) : Decidable (Apart p q) :=
  inferInstanceAs (Decidable (¬ p <+: q ∧ ¬ q <+: p))

theorem at?_put_of_apart (new : V) {v : V} {p q : List A} (h : Apart p q) :
    T.at? (T.put new v p) q = T.at? v q := by
  induction p generalizing v q with
  | nil => exact absurd List.nil_prefix h.1
  | cons a p ih =>
    cases q with
    | nil => exact absurd List.nil_prefix h.2
    | cons b q =>
      cases hget : T.get v a with
      | none => simp only [put, hget]
      | some part =>
        simp only [put, hget]
        by_cases heq : a = b
        · subst heq
          have hrest : Apart p q :=
            ⟨fun hp => h.1 (List.cons_prefix_cons.mpr ⟨rfl, hp⟩),
              fun hq => h.2 (List.cons_prefix_cons.mpr ⟨rfl, hq⟩)⟩
          simp only [at?, T.get_set_self v a part _ hget, hget]
          exact ih hrest
        · simp only [at?, T.get_set_ne v a b _ heq]

/-- `P` holds of every part of a value of which it holds, and is kept when a part is replaced
    by another one that fits. -/
structure Local (T : Accessors V A) (P : V → Prop) (Fits : A → V → V → Prop) : Prop where
  part : ∀ {v a part}, P v → T.get v a = some part → P part
  set : ∀ {v a part new}, P v → T.get v a = some part → P new → Fits a part new →
    P (T.set v a new)
  /-- A value fits where it was, whatever becomes of its parts. -/
  fits_set : ∀ {v part} (a b new), T.get v b = some part → Fits a v (T.set v b new)

section Local

variable {P : V → Prop} {Fits : A → V → V → Prop} (h : Local T P Fits)
include h

theorem Local.at? {v part : V} {p : List A} (hv : P v) (hpart : T.at? v p = some part) :
    P part := by
  induction p generalizing v with
  | nil => exact Option.some.inj hpart ▸ hv
  | cons a p ih =>
    simp only [Accessors.at?] at hpart
    split at hpart
    case h_1 => cases hpart
    case h_2 child hchild => exact ih (h.part hv hchild) hpart

theorem Local.put {v old new : V} {p : List A} (hv : P v) (hold : T.at? v p = some old)
    (hnew : P new) (hfits : ∀ a ∈ p.getLast?, Fits a old new) : P (T.put new v p) := by
  induction p generalizing v with
  | nil => exact hnew
  | cons a p ih =>
    simp only [Accessors.at?] at hold
    split at hold
    case h_1 => cases hold
    case h_2 child hchild =>
      simp only [Accessors.put, hchild]
      cases p with
      | nil =>
        obtain rfl := Option.some.inj hold
        exact h.set hv hchild hnew (hfits a rfl)
      | cons b p =>
        have hrest := ih (h.part hv hchild) hold hfits
        refine h.set hv hchild hrest ?_
        -- The change is further down.
        simp only [Accessors.at?] at hold
        split at hold
        case h_1 => cases hold
        case h_2 grandchild hgrandchild =>
          simp only [Accessors.put, hgrandchild]
          exact h.fits_set a b _ hgrandchild

end Local

end Accessors
