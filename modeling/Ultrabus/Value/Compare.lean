import Ultrabus.Value.Arithmetic
import Ultrabus.Value.Types

/-! # Comparison of D-Bus values

`DbusType.equal` and `DbusType.threeWay` are the virtual `operator==` and `operator<=>`
of the classes derived from `dbus_type`, called through the polymorphic interface.  An
ordering is `none` where the result is `unordered`.

Both operators read two values in step, and stop at the first place that decides.
`DbusType.steps` is the list of these places; `equal_eq` and `threeWay_eq` say that the
operators do nothing but look for the first one that is not a tie. -/

namespace Ultrabus

/-- What a variant holds, through as many variants as there are: every class hands the
    content of a variant on the right to itself again. -/
def DbusType.content : DbusType → DbusType
  | .variant value => value.content
  | value => value

/-- `dbus_variant::get` on a variant. -/
def DbusType.get : DbusType → DbusType
  | .variant value => value
  | value => value

/-! ## The operators -/

mutual
/-- `operator== (const dbus_type&)` of the class of the left operand. -/
def DbusType.equal : DbusType → DbusType → Except Exception Bool
  | .basic lhs, rhs =>
    match rhs.content with
    | .basic rhs => return lhs.equal rhs
    | _ => return false
  | .array sig items, rhs =>
    match rhs.content with
    | .array sig' items' =>
      if sig ≠ sig' ∨ items.length ≠ items'.length then return false else equalItems items items'
    | _ => return false
  | .struct sig items, rhs =>
    match rhs.content with
    | .struct sig' items' =>
      if sig ≠ sig' ∨ items.length ≠ items'.length then return false else equalItems items items'
    | _ => return false
  | .dict key sig items, rhs =>
    match rhs.content with
    | .dict key' sig' items' =>
      -- `rhs.cast<dbus_dict<key_type_t>>()` comes before the signatures are compared.
      if key ≠ key' then throw .badCast
      else if sig ≠ sig' then return false
      else equalEntries items items'
    | _ => return false
  | .variant value, rhs => value.equal rhs.get

def equalItems : List DbusType → List DbusType → Except Exception Bool
  | lhs :: lhsItems, rhs :: rhsItems => do
    if !(← lhs.equal rhs) then return false
    equalItems lhsItems rhsItems
  | _, _ => return true

def equalEntries : List (Basic × DbusType) → List (Basic × DbusType) → Except Exception Bool
  | (key, value) :: lhsItems, (key', value') :: rhsItems => do
    if !key.equal key' then return false
    if !(← value.equal value') then return false
    equalEntries lhsItems rhsItems
  | [], [] => return true
  | _, _ => return false
end

mutual
/-- `operator<=> (const dbus_type&)` of the class of the left operand. -/
def DbusType.threeWay : DbusType → DbusType → Except Exception (Option Ordering)
  | .basic lhs, rhs =>
    match rhs.content with
    | .basic rhs => return lhs.threeWay rhs
    | _ => return none
  | .array sig items, rhs =>
    match rhs.content with
    | .array sig' items' => if sig ≠ sig' then return none else threeWayItems items items'
    | _ => return none
  | .struct sig items, rhs =>
    match rhs.content with
    | .struct sig' items' =>
      if sig ≠ sig' ∨ items.length ≠ items'.length then return none
      else threeWayItems items items'
    | _ => return none
  | .dict key sig items, rhs =>
    match rhs.content with
    | .dict key' sig' items' =>
      if key ≠ key' then throw .badCast
      else if sig ≠ sig' then return none
      else threeWayEntries items items'
    | _ => return none
  | .variant value, rhs => value.threeWay rhs.get

def threeWayItems : List DbusType → List DbusType → Except Exception (Option Ordering)
  | lhs :: lhsItems, rhs :: rhsItems => do
    let res ← lhs.threeWay rhs
    if res ≠ some .eq then return res
    threeWayItems lhsItems rhsItems
  | _ :: _, [] => return some .gt
  | [], _ :: _ => return some .lt
  | [], [] => return some .eq

def threeWayEntries :
    List (Basic × DbusType) → List (Basic × DbusType) → Except Exception (Option Ordering)
  | (key, value) :: lhsItems, (key', value') :: rhsItems => do
    let resK := key.threeWay key'
    if resK ≠ some .eq then return resK
    let resV ← value.threeWay value'
    if resV ≠ some .eq then return resV
    threeWayEntries lhsItems rhsItems
  | _ :: _, [] => return some .gt
  | [], _ :: _ => return some .lt
  | [], [] => return some .eq
end

/-! ## Reading two values in step -/

inductive Operator where
  | equality
  | threeWay
deriving DecidableEq, Repr

/-- A place that two values are compared at. -/
inductive Step where
  | basics (lhs rhs : Basic)
  -- contents of two kinds, or containers with two signatures or numbers of elements
  | unlike
  -- dicts of two classes
  | clash
  -- the left operand ends before the right one, or goes on behind it
  | shorter
  | longer
deriving DecidableEq, Repr

mutual
def DbusType.steps (op : Operator) : DbusType → DbusType → List Step
  | .basic lhs, rhs =>
    match rhs.content with
    | .basic rhs => [.basics lhs rhs]
    | _ => [.unlike]
  | .array sig items, rhs =>
    match rhs.content with
    | .array sig' items' =>
      -- Only equality looks at the sizes of two arrays first.
      if sig = sig' ∧ (op = .equality → items.length = items'.length) then
        itemSteps op items items'
      else [.unlike]
    | _ => [.unlike]
  | .struct sig items, rhs =>
    match rhs.content with
    | .struct sig' items' =>
      if sig = sig' ∧ items.length = items'.length then itemSteps op items items' else [.unlike]
    | _ => [.unlike]
  | .dict key sig items, rhs =>
    match rhs.content with
    | .dict key' sig' items' =>
      if key ≠ key' then [.clash]
      else if sig = sig' then entrySteps op items items'
      else [.unlike]
    | _ => [.unlike]
  | .variant value, rhs => value.steps op rhs.get

def itemSteps (op : Operator) : List DbusType → List DbusType → List Step
  | lhs :: lhsItems, rhs :: rhsItems => lhs.steps op rhs ++ itemSteps op lhsItems rhsItems
  | _ :: _, [] => [.longer]
  | [], _ :: _ => [.shorter]
  | [], [] => []

def entrySteps (op : Operator) : List (Basic × DbusType) → List (Basic × DbusType) → List Step
  | (key, value) :: lhsItems, (key', value') :: rhsItems =>
    .basics key key' :: (value.steps op value' ++ entrySteps op lhsItems rhsItems)
  | _ :: _, [] => [.longer]
  | [], _ :: _ => [.shorter]
  | [], [] => []
end

/-- What `operator==` says at a place, none at a tie. -/
def Step.equal? : Step → Option (Except Exception Bool)
  | .basics lhs rhs => if lhs.equal rhs then none else some (.ok false)
  | .unlike => some (.ok false)
  | .clash => some (.error .badCast)
  | .shorter => some (.ok false)
  | .longer => some (.ok false)

/-- What `operator<=>` says at a place, none at a tie. -/
def Step.threeWay? : Step → Option (Except Exception (Option Ordering))
  | .basics lhs rhs => if lhs.threeWay rhs = some .eq then none else some (.ok (lhs.threeWay rhs))
  | .unlike => some (.ok none)
  | .clash => some (.error .badCast)
  | .shorter => some (.ok (some .lt))
  | .longer => some (.ok (some .gt))

/-- The first verdict given on the way, or the result of a tie throughout. -/
def firstVerdict {α : Type} (verdict : Step → Option α) (tie : α) (steps : List Step) : α :=
  (steps.findSome? verdict).getD tie

theorem firstVerdict_append {α : Type} (verdict : Step → Option α) (tie : α)
    (steps steps' : List Step) :
    firstVerdict verdict tie (steps ++ steps') =
      firstVerdict verdict (firstVerdict verdict tie steps') steps := by
  simp only [firstVerdict, List.findSome?_append]
  cases steps.findSome? verdict <;> rfl

theorem firstVerdict_cons {α : Type} (verdict : Step → Option α) (tie : α) (s : Step)
    (steps : List Step) :
    firstVerdict verdict tie (s :: steps) =
      (verdict s).getD (firstVerdict verdict tie steps) := by
  simp only [firstVerdict, List.findSome?_cons]
  cases verdict s <;> rfl

theorem Step.equal?_ne_true (s : Step) : s.equal? ≠ some (.ok true) := by
  cases s with
  | basics lhs rhs => by_cases h : lhs.equal rhs <;> simp [Step.equal?, h]
  | _ => simp [Step.equal?]

theorem Step.threeWay?_ne_eq (s : Step) : s.threeWay? ≠ some (.ok (some .eq)) := by
  cases s with
  | basics lhs rhs => by_cases h : lhs.threeWay rhs = some .eq <;> simp [Step.threeWay?, h]
  | _ => simp [Step.threeWay?]

/-- Going on with the rest after a tie, the only way to the result of a tie. -/
theorem firstVerdict_equal_then (steps : List Step) (rest : Except Exception Bool) :
    (do if !(← firstVerdict Step.equal? (.ok true) steps) then return false
        rest) = firstVerdict Step.equal? rest steps := by
  unfold firstVerdict
  cases h : steps.findSome? Step.equal? with
  | none => rfl
  | some verdict =>
    obtain ⟨s, -, hs⟩ := List.exists_of_findSome?_eq_some h
    match verdict with
    | .ok true => exact absurd hs s.equal?_ne_true
    | .ok false => rfl
    | .error _ => rfl

theorem firstVerdict_threeWay_then (steps : List Step) (rest : Except Exception (Option Ordering)) :
    (do let res ← firstVerdict Step.threeWay? (.ok (some .eq)) steps
        if res ≠ some .eq then return res
        rest) = firstVerdict Step.threeWay? rest steps := by
  unfold firstVerdict
  cases h : steps.findSome? Step.threeWay? with
  | none => rfl
  | some verdict =>
    obtain ⟨s, -, hs⟩ := List.exists_of_findSome?_eq_some h
    match verdict with
    | .ok (some .eq) => exact absurd hs s.threeWay?_ne_eq
    | .ok (some .lt) => rfl
    | .ok (some .gt) => rfl
    | .ok none => rfl
    | .error _ => rfl

mutual
/-- `operator==` returns the verdict of the first place that is not a tie. -/
theorem DbusType.equal_eq (a b : DbusType) :
    a.equal b = firstVerdict Step.equal? (.ok true) (a.steps .equality b) := by
  cases a with
  | basic lhs =>
    simp only [DbusType.equal, DbusType.steps]
    split
    case h_1 rhs _ => cases h : lhs.equal rhs <;> simp [firstVerdict, Step.equal?, h] <;> rfl
    case h_2 => rfl
  | array sig items =>
    simp only [DbusType.equal, DbusType.steps, forall_const]
    split
    case h_1 sig' items' _ =>
      by_cases h : sig = sig' ∧ items.length = items'.length
      · rw [if_pos h, if_neg (by simpa [not_or] using h)]
        exact equalItems_eq h.2
      · rw [if_neg h, if_pos (by simpa [← not_and_or] using h)]
        rfl
    case h_2 => rfl
  | struct sig items =>
    simp only [DbusType.equal, DbusType.steps]
    split
    case h_1 sig' items' _ =>
      by_cases h : sig = sig' ∧ items.length = items'.length
      · rw [if_pos h, if_neg (by simpa [not_or] using h)]
        exact equalItems_eq h.2
      · rw [if_neg h, if_pos (by simpa [← not_and_or] using h)]
        rfl
    case h_2 => rfl
  | dict key sig items =>
    simp only [DbusType.equal, DbusType.steps]
    split
    case h_1 key' sig' items' _ =>
      by_cases hkey : key = key'
      · by_cases hsig : sig = sig'
        · simpa [hkey, hsig] using equalEntries_eq items items'
        · simp [hkey, hsig]; rfl
      · simp [hkey]; rfl
    case h_2 => rfl
  | variant value =>
    simp only [DbusType.equal, DbusType.steps]
    exact DbusType.equal_eq value b.get

theorem equalItems_eq {lhsItems rhsItems : List DbusType}
    (hlength : lhsItems.length = rhsItems.length) :
    equalItems lhsItems rhsItems =
      firstVerdict Step.equal? (.ok true) (itemSteps .equality lhsItems rhsItems) := by
  cases lhsItems with
  | nil =>
    cases rhsItems with
    | nil => rfl
    | cons rhs rhsItems => cases hlength
  | cons lhs lhsItems =>
    cases rhsItems with
    | nil => cases hlength
    | cons rhs rhsItems =>
      simp only [equalItems, itemSteps, firstVerdict_append]
      rw [DbusType.equal_eq lhs rhs, equalItems_eq (Nat.succ.inj hlength)]
      exact firstVerdict_equal_then _ _

theorem equalEntries_eq (lhsItems rhsItems : List (Basic × DbusType)) :
    equalEntries lhsItems rhsItems =
      firstVerdict Step.equal? (.ok true) (entrySteps .equality lhsItems rhsItems) := by
  cases lhsItems with
  | nil => cases rhsItems <;> rfl
  | cons lhs lhsItems =>
    cases rhsItems with
    | nil => rfl
    | cons rhs rhsItems =>
      obtain ⟨key, value⟩ := lhs
      obtain ⟨key', value'⟩ := rhs
      simp only [equalEntries, entrySteps, firstVerdict_append, firstVerdict_cons]
      rw [DbusType.equal_eq value value', equalEntries_eq lhsItems rhsItems]
      cases hkey : key.equal key' with
      | false => simp [Step.equal?, hkey]; rfl
      | true =>
        simp only [Step.equal?, hkey, if_true, Option.getD_none]
        exact firstVerdict_equal_then _ _
end

mutual
/-- `operator<=>` returns the verdict of the first place that is not a tie. -/
theorem DbusType.threeWay_eq (a b : DbusType) :
    a.threeWay b = firstVerdict Step.threeWay? (.ok (some .eq)) (a.steps .threeWay b) := by
  cases a with
  | basic lhs =>
    simp only [DbusType.threeWay, DbusType.steps]
    split
    case h_1 rhs _ =>
      by_cases h : lhs.threeWay rhs = some .eq <;> simp [firstVerdict, Step.threeWay?, h] <;> rfl
    case h_2 => rfl
  | array sig items =>
    simp only [DbusType.threeWay, DbusType.steps, reduceCtorEq, false_implies, and_true]
    split
    case h_1 sig' items' _ =>
      by_cases h : sig = sig'
      · rw [if_pos h, if_neg (not_not.mpr h)]
        exact threeWayItems_eq items items'
      · rw [if_neg h, if_pos h]
        rfl
    case h_2 => rfl
  | struct sig items =>
    simp only [DbusType.threeWay, DbusType.steps]
    split
    case h_1 sig' items' _ =>
      by_cases h : sig = sig' ∧ items.length = items'.length
      · rw [if_pos h, if_neg (by simpa [not_or] using h)]
        exact threeWayItems_eq items items'
      · rw [if_neg h, if_pos (by simpa [← not_and_or] using h)]
        rfl
    case h_2 => rfl
  | dict key sig items =>
    simp only [DbusType.threeWay, DbusType.steps]
    split
    case h_1 key' sig' items' _ =>
      by_cases hkey : key = key'
      · by_cases hsig : sig = sig'
        · simpa [hkey, hsig] using threeWayEntries_eq items items'
        · simp [hkey, hsig]; rfl
      · simp [hkey]; rfl
    case h_2 => rfl
  | variant value =>
    simp only [DbusType.threeWay, DbusType.steps]
    exact DbusType.threeWay_eq value b.get

theorem threeWayItems_eq (lhsItems rhsItems : List DbusType) :
    threeWayItems lhsItems rhsItems =
      firstVerdict Step.threeWay? (.ok (some .eq)) (itemSteps .threeWay lhsItems rhsItems) := by
  cases lhsItems with
  | nil => cases rhsItems <;> rfl
  | cons lhs lhsItems =>
    cases rhsItems with
    | nil => rfl
    | cons rhs rhsItems =>
      simp only [threeWayItems, itemSteps, firstVerdict_append]
      rw [DbusType.threeWay_eq lhs rhs, threeWayItems_eq lhsItems rhsItems]
      exact firstVerdict_threeWay_then _ _

theorem threeWayEntries_eq (lhsItems rhsItems : List (Basic × DbusType)) :
    threeWayEntries lhsItems rhsItems =
      firstVerdict Step.threeWay? (.ok (some .eq)) (entrySteps .threeWay lhsItems rhsItems) := by
  cases lhsItems with
  | nil => cases rhsItems <;> rfl
  | cons lhs lhsItems =>
    cases rhsItems with
    | nil => rfl
    | cons rhs rhsItems =>
      obtain ⟨key, value⟩ := lhs
      obtain ⟨key', value'⟩ := rhs
      simp only [threeWayEntries, entrySteps, firstVerdict_append, firstVerdict_cons]
      rw [DbusType.threeWay_eq value value', threeWayEntries_eq lhsItems rhsItems]
      by_cases hkey : key.threeWay key' = some .eq
      · simp only [Step.threeWay?, hkey, if_true, Option.getD_none, ne_eq, not_true_eq_false,
          if_false]
        exact firstVerdict_threeWay_then _ _
      · simp [Step.threeWay?, hkey]; rfl
end

end Ultrabus
