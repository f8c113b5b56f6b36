import Mathlib.Order.Compare

/-! # The lexicographic order of trees

Finite trees with values of an ordered type at their leaves.  A leaf comes before a node,
and two nodes are ordered by their children from left to right, where a proper prefix
comes first.  The order is a linear one. -/

inductive LexTree (α : Type*) where
  | leaf (value : α)
  | node (children : List (LexTree α))

namespace LexTree

variable {α : Type*} [LinearOrder α]

mutual
def compare : LexTree α → LexTree α → Ordering
  | .leaf a, .leaf b => Ord.compare a b
  | .leaf _, .node _ => .lt
  | .node _, .leaf _ => .gt
  | .node xs, .node ys => compareAll xs ys

/-- Children from left to right; the first difference decides. -/
def compareAll : List (LexTree α) → List (LexTree α) → Ordering
  | [], [] => .eq
  | [], _ :: _ => .lt
  | _ :: _, [] => .gt
  | x :: xs, y :: ys => (compare x y).then (compareAll xs ys)
end

mutual
theorem compare_swap (a b : LexTree α) : (compare a b).swap = compare b a := by
  cases a with
  | leaf a =>
    cases b with
    | leaf b => rw [compare, compare, ← cmp_eq_compare, ← cmp_eq_compare, cmp_swap]
    | node ys => rfl
  | node xs =>
    cases b with
    | leaf b => rfl
    | node ys => simpa only [compare] using compareAll_swap xs ys

theorem compareAll_swap (xs ys : List (LexTree α)) :
    (compareAll xs ys).swap = compareAll ys xs := by
  cases xs with
  | nil => cases ys <;> rfl
  | cons x xs =>
    cases ys with
    | nil => rfl
    | cons y ys =>
      simp only [compareAll, Ordering.swap_then, compare_swap x y, compareAll_swap xs ys]
end

mutual
theorem compare_eq_iff (a b : LexTree α) : compare a b = .eq ↔ a = b := by
  cases a with
  | leaf a =>
    cases b with
    | leaf b => simp only [compare, compare_eq_iff_eq, leaf.injEq]
    | node ys => simp [compare]
  | node xs =>
    cases b with
    | leaf b => simp [compare]
    | node ys => simpa only [compare, node.injEq] using compareAll_eq_iff xs ys

theorem compareAll_eq_iff (xs ys : List (LexTree α)) : compareAll xs ys = .eq ↔ xs = ys := by
  cases xs with
  | nil => cases ys <;> simp [compareAll]
  | cons x xs =>
    cases ys with
    | nil => simp [compareAll]
    | cons y ys =>
      simp only [compareAll, Ordering.then_eq_eq, compare_eq_iff x y, compareAll_eq_iff xs ys,
        List.cons.injEq]
end

@[simp] theorem compare_self (a : LexTree α) : compare a a = .eq := (compare_eq_iff a a).mpr rfl

theorem compareAll_cons_eq_lt {x y : LexTree α} {xs ys : List (LexTree α)} :
    compareAll (x :: xs) (y :: ys) = .lt ↔
      compare x y = .lt ∨ x = y ∧ compareAll xs ys = .lt := by
  rw [compareAll, Ordering.then_eq_lt, compare_eq_iff]

mutual
theorem compare_lt_trans {a b c : LexTree α} (hab : compare a b = .lt)
    (hbc : compare b c = .lt) : compare a c = .lt := by
  cases a with
  | leaf a =>
    cases c with
    | node zs => rfl
    | leaf c =>
      cases b with
      | node ys => cases hbc
      | leaf b =>
        simp only [compare, compare_lt_iff_lt] at hab hbc ⊢
        exact hab.trans hbc
  | node xs =>
    cases b with
    | leaf b => cases hab
    | node ys =>
      cases c with
      | leaf c => cases hbc
      | node zs => exact compareAll_lt_trans hab hbc

theorem compareAll_lt_trans {xs ys zs : List (LexTree α)} (hxy : compareAll xs ys = .lt)
    (hyz : compareAll ys zs = .lt) : compareAll xs zs = .lt := by
  cases zs with
  | nil => cases ys <;> cases hyz
  | cons z zs =>
    cases xs with
    | nil => rfl
    | cons x xs =>
      cases ys with
      | nil => cases hxy
      | cons y ys =>
        rw [compareAll_cons_eq_lt] at hxy hyz ⊢
        obtain hxy | ⟨rfl, hxs⟩ := hxy
        · obtain hyz | ⟨rfl, -⟩ := hyz
          · exact .inl (compare_lt_trans hxy hyz)
          · exact .inl hxy
        · obtain hxz | ⟨rfl, hys⟩ := hyz
          · exact .inl hxz
          · exact .inr ⟨rfl, compareAll_lt_trans hxs hys⟩
end

instance : Preorder (LexTree α) where
  le a b := compare a b ≠ .gt
  lt a b := compare a b = .lt
  le_refl a := by simp
  le_trans a b c hab hbc := by
    -- Up to equality, which substitutes, both steps are strict.
    cases h : compare a b with
    | gt => exact absurd h hab
    | eq => rwa [(compare_eq_iff a b).mp h]
    | lt =>
      cases h' : compare b c with
      | gt => exact absurd h' hbc
      | eq => rwa [← (compare_eq_iff b c).mp h']
      | lt => simp [compare_lt_trans h h']
  lt_iff_le_not_ge a b := by
    rw [← compare_swap a b]
    cases compare a b <;> simp

theorem compare_ne_gt (a b : LexTree α) : compare a b ≠ .gt ↔ a ≤ b := Iff.rfl

theorem compare_compares (a b : LexTree α) : (compare a b).Compares a b := by
  cases h : compare a b with
  | lt => exact h
  | eq => exact (compare_eq_iff a b).mp h
  | gt =>
    have hswap := compare_swap a b
    rw [h] at hswap
    exact hswap.symm

instance : LinearOrder (LexTree α) := linearOrderOfCompares compare compare_compares

end LexTree
