import Ultrabus.Value.Compare

/-! # Shapes of D-Bus values

What the places at which two values are compared have to do with the values: variants do
not show, the two operands play one role, and two values of one shape are compared leaf
by leaf. -/

namespace Ultrabus

/-! ## Variants are transparent, and the two operands play one role -/

@[simp] theorem DbusType.content_content (v : DbusType) : v.content.content = v.content := by
  cases v with
  | variant value => simpa [DbusType.content] using value.content_content
  | _ => rfl

@[simp] theorem DbusType.content_get (v : DbusType) : v.get.content = v.content := by
  cases v <;> rfl

theorem DbusType.content_ne_variant (v value : DbusType) : v.content ≠ .variant value := by
  cases v with
  | variant inner => simpa [DbusType.content] using inner.content_ne_variant value
  | _ => simp [DbusType.content]

theorem DbusType.get_eq_self {v : DbusType} (h : ∀ value, v ≠ .variant value) : v.get = v := by
  cases v with
  | variant value => exact absurd rfl (h value)
  | _ => rfl

theorem DbusType.steps_content_right (op : Operator) (a b : DbusType) :
    a.steps op b.content = a.steps op b := by
  cases a with
  | variant value =>
    simp only [DbusType.steps]
    rw [← DbusType.steps_content_right op value b.content.get,
      ← DbusType.steps_content_right op value b.get]
    simp only [DbusType.content_get, DbusType.content_content]
  | _ => simp only [DbusType.steps, DbusType.content_content]

theorem DbusType.steps_content_left (op : Operator) (a b : DbusType) :
    a.content.steps op b = a.steps op b := by
  cases a with
  | variant value =>
    rw [DbusType.content, DbusType.steps, DbusType.steps_content_left op value b,
      ← DbusType.steps_content_right op value b, ← DbusType.steps_content_right op value b.get,
      DbusType.content_get]
  | _ => rfl

def Step.swap : Step → Step
  | .basics lhs rhs => .basics rhs lhs
  | .unlike => .unlike
  | .clash => .clash
  | .shorter => .longer
  | .longer => .shorter

mutual
theorem DbusType.steps_swap (op : Operator) (a b : DbusType) :
    b.steps op a = (a.steps op b).map Step.swap := by
  rw [← DbusType.steps_content_left op b a, ← DbusType.steps_content_right op a b]
  have hb := b.content_ne_variant
  generalize b.content = b at hb
  cases a with
  | basic lhs =>
    cases b with
    | variant value => exact absurd rfl (hb value)
    | _ => rfl
  | array sig items =>
    cases b with
    | array sig' items' =>
      simp only [DbusType.steps, DbusType.content, eq_comm (a := sig'),
        eq_comm (a := items'.length), apply_ite (List.map Step.swap)]
      rw [itemSteps_swap op items items']
      rfl
    | variant value => exact absurd rfl (hb value)
    | _ => rfl
  | struct sig items =>
    cases b with
    | struct sig' items' =>
      simp only [DbusType.steps, DbusType.content, eq_comm (a := sig'),
        eq_comm (a := items'.length), apply_ite (List.map Step.swap)]
      rw [itemSteps_swap op items items']
      rfl
    | variant value => exact absurd rfl (hb value)
    | _ => rfl
  | dict key sig items =>
    cases b with
    | dict key' sig' items' =>
      simp only [DbusType.steps, DbusType.content, ne_comm (a := key'), eq_comm (a := sig'),
        apply_ite (List.map Step.swap)]
      rw [entrySteps_swap op items items']
      rfl
    | variant value => exact absurd rfl (hb value)
    | _ => rfl
  | variant value =>
    rw [DbusType.steps, DbusType.get_eq_self hb, ← DbusType.steps_swap op value b,
      ← DbusType.steps_content_right op b, DbusType.content, DbusType.steps_content_right]

theorem itemSteps_swap (op : Operator) (lhsItems rhsItems : List DbusType) :
    itemSteps op rhsItems lhsItems = (itemSteps op lhsItems rhsItems).map Step.swap := by
  cases lhsItems with
  | nil => cases rhsItems <;> rfl
  | cons lhs lhsItems =>
    cases rhsItems with
    | nil => rfl
    | cons rhs rhsItems =>
      simp only [itemSteps, List.map_append]
      rw [DbusType.steps_swap op lhs rhs, itemSteps_swap op lhsItems rhsItems]

theorem entrySteps_swap (op : Operator) (lhsItems rhsItems : List (Basic × DbusType)) :
    entrySteps op rhsItems lhsItems = (entrySteps op lhsItems rhsItems).map Step.swap := by
  cases lhsItems with
  | nil => cases rhsItems <;> rfl
  | cons lhs lhsItems =>
    cases rhsItems with
    | nil => rfl
    | cons rhs rhsItems =>
      obtain ⟨key, value⟩ := lhs
      obtain ⟨key', value'⟩ := rhs
      simp only [entrySteps, List.map_cons, List.map_append, Step.swap]
      rw [DbusType.steps_swap op value value', entrySteps_swap op lhsItems rhsItems]
end

/-! ## Shape and leaves -/

/-- What is left of a value without its variants and without its basic values. -/
inductive Shape where
  | basic
  | array (sig : Bytes) (items : List Shape)
  | struct (sig : Bytes) (items : List Shape)
  | dict (key : BasicType) (sig : Bytes) (items : List Shape)

mutual
def DbusType.shape : DbusType → Shape
  | .basic _ => .basic
  | .array sig items => .array sig (itemShapes items)
  | .struct sig items => .struct sig (itemShapes items)
  | .dict key sig items => .dict key sig (entryShapes items)
  | .variant value => value.shape

def itemShapes : List DbusType → List Shape
  | [] => []
  | item :: items => item.shape :: itemShapes items

def entryShapes : List (Basic × DbusType) → List Shape
  | [] => []
  | (_, value) :: items => value.shape :: entryShapes items
end

mutual
/-- The basic values in a value, keys included, in the order in which they are compared. -/
def DbusType.leaves : DbusType → List Basic
  | .basic value => [value]
  | .array _ items => itemLeaves items
  | .struct _ items => itemLeaves items
  | .dict _ _ items => entryLeaves items
  | .variant value => value.leaves

def itemLeaves : List DbusType → List Basic
  | [] => []
  | item :: items => item.leaves ++ itemLeaves items

def entryLeaves : List (Basic × DbusType) → List Basic
  | [] => []
  | (key, value) :: items => key :: (value.leaves ++ entryLeaves items)
end

theorem forall_mem_itemLeaves {P : Basic → Prop} {items : List DbusType} :
    (∀ x ∈ itemLeaves items, P x) ↔ ∀ item ∈ items, ∀ x ∈ item.leaves, P x := by
  induction items with
  | nil => exact iff_of_true (List.forall_mem_nil P) (List.forall_mem_nil _)
  | cons item items ih => rw [itemLeaves, List.forall_mem_append, List.forall_mem_cons, ih]

theorem forall_mem_entryLeaves {P : Basic → Prop} {items : List (Basic × DbusType)} :
    (∀ x ∈ entryLeaves items, P x) ↔ ∀ i ∈ items, P i.1 ∧ ∀ x ∈ i.2.leaves, P x := by
  induction items with
  | nil => exact iff_of_true (List.forall_mem_nil P) (List.forall_mem_nil _)
  | cons i items ih =>
    rw [entryLeaves, List.forall_mem_cons, List.forall_mem_append, List.forall_mem_cons, ih,
      and_assoc]

@[simp] theorem DbusType.shape_content (v : DbusType) : v.content.shape = v.shape := by
  cases v with
  | variant value => simpa [DbusType.content, DbusType.shape] using value.shape_content
  | _ => rfl

@[simp] theorem DbusType.leaves_content (v : DbusType) : v.content.leaves = v.leaves := by
  cases v with
  | variant value => simpa [DbusType.content, DbusType.leaves] using value.leaves_content
  | _ => rfl

theorem length_itemShapes (items : List DbusType) : (itemShapes items).length = items.length := by
  induction items with
  | nil => rfl
  | cons item items ih => simp [itemShapes, ih]

/-- The place is a pair of basic values. -/
def Step.IsBasics (s : Step) : Prop := ∃ x y, s = .basics x y

theorem Step.not_isBasics_of_ne {s : Step} (h : ∀ x y, s ≠ .basics x y) : ¬ s.IsBasics := by
  rintro ⟨x, y, hxy⟩
  exact h x y hxy

/-! ## Statements about the places

What `P` says of two values and their places is proved case by case, together with what it
comes to for items and for entries. -/

structure StepInduction (op : Operator) (P : DbusType → DbusType → List Step → Prop)
    (PItems : List DbusType → List DbusType → List Step → Prop)
    (PEntries : List (Basic × DbusType) → List (Basic × DbusType) → List Step → Prop) :
    Prop where
  left {value b : DbusType} {steps : List Step} : P value b steps → P (.variant value) b steps
  right {a b : DbusType} {steps : List Step} : P a b.content steps → P a b steps
  basics (x y : Basic) : P (.basic x) (.basic y) [.basics x y]
  array (sig : Bytes) {items items' : List DbusType} {steps : List Step} :
    PItems items items' steps → P (.array sig items) (.array sig items') steps
  struct (sig : Bytes) {items items' : List DbusType} {steps : List Step} :
    PItems items items' steps → P (.struct sig items) (.struct sig items') steps
  dict (key : BasicType) (sig : Bytes) {items items' : List (Basic × DbusType)}
    {steps : List Step} :
    PEntries items items' steps → P (.dict key sig items) (.dict key sig items') steps
  apart {a b : DbusType} {s : Step} : a.shape ≠ b.shape → ¬ s.IsBasics → P a b [s]
  itemsNil : PItems [] [] []
  itemsCons {item item' : DbusType} {items items' : List DbusType} {steps steps' : List Step} :
    P item item' steps → PItems items items' steps' →
    PItems (item :: items) (item' :: items') (steps ++ steps')
  itemsApart {items items' : List DbusType} {s : Step} :
    itemShapes items ≠ itemShapes items' → ¬ s.IsBasics → PItems items items' [s]
  entriesNil : PEntries [] [] []
  entriesCons (key key' : Basic) {value value' : DbusType}
    {items items' : List (Basic × DbusType)} {steps steps' : List Step} :
    P value value' steps → PEntries items items' steps' →
    PEntries ((key, value) :: items) ((key', value') :: items')
      (.basics key key' :: (steps ++ steps'))
  entriesApart {items items' : List (Basic × DbusType)} {s : Step} :
    entryShapes items ≠ entryShapes items' → ¬ s.IsBasics → PEntries items items' [s]

section StepInduction

variable {op : Operator} {P : DbusType → DbusType → List Step → Prop}
  {PItems : List DbusType → List DbusType → List Step → Prop}
  {PEntries : List (Basic × DbusType) → List (Basic × DbusType) → List Step → Prop}

mutual
theorem StepInduction.holds (h : StepInduction op P PItems PEntries) (a b : DbusType) :
    P a b (a.steps op b) := by
  rw [← DbusType.steps_content_right]
  apply h.right
  have hb := b.content_ne_variant
  generalize b.content = b at hb
  have hunlike : ¬ Step.unlike.IsBasics := Step.not_isBasics_of_ne (by simp)
  have hclash : ¬ Step.clash.IsBasics := Step.not_isBasics_of_ne (by simp)
  cases a with
  | basic lhs =>
    cases b with
    | basic rhs => exact h.basics lhs rhs
    | variant value => exact absurd rfl (hb value)
    | _ => exact h.apart (by simp [DbusType.shape]) hunlike
  | array sig items =>
    cases b with
    | array sig' items' =>
      simp only [DbusType.steps, DbusType.content]
      split
      case isTrue hsame =>
        rw [← hsame.1]
        exact h.array sig (h.holdsItems items items')
      case isFalse hsame =>
        refine h.apart (fun hshape => hsame ?_) hunlike
        obtain ⟨hsig, hitems⟩ := Shape.array.inj hshape
        exact ⟨hsig, fun _ => by rw [← length_itemShapes, hitems, length_itemShapes]⟩
    | variant value => exact absurd rfl (hb value)
    | _ => exact h.apart (by simp [DbusType.shape]) hunlike
  | struct sig items =>
    cases b with
    | struct sig' items' =>
      simp only [DbusType.steps, DbusType.content]
      split
      case isTrue hsame =>
        rw [← hsame.1]
        exact h.struct sig (h.holdsItems items items')
      case isFalse hsame =>
        refine h.apart (fun hshape => hsame ?_) hunlike
        obtain ⟨hsig, hitems⟩ := Shape.struct.inj hshape
        exact ⟨hsig, by rw [← length_itemShapes, hitems, length_itemShapes]⟩
    | variant value => exact absurd rfl (hb value)
    | _ => exact h.apart (by simp [DbusType.shape]) hunlike
  | dict key sig items =>
    cases b with
    | dict key' sig' items' =>
      simp only [DbusType.steps, DbusType.content]
      split
      case isTrue hkey => exact h.apart (fun hshape => hkey (Shape.dict.inj hshape).1) hclash
      case isFalse hkey =>
        split
        case isTrue hsig =>
          rw [← hsig, ← not_not.mp hkey]
          exact h.dict key sig (h.holdsEntries items items')
        case isFalse hsig =>
          exact h.apart (fun hshape => hsig (Shape.dict.inj hshape).2.1) hunlike
    | variant value => exact absurd rfl (hb value)
    | _ => exact h.apart (by simp [DbusType.shape]) hunlike
  | variant value =>
    rw [DbusType.steps, DbusType.get_eq_self hb]
    exact h.left (h.holds value b)

theorem StepInduction.holdsItems (h : StepInduction op P PItems PEntries)
    (items items' : List DbusType) : PItems items items' (itemSteps op items items') := by
  have hshorter : ¬ Step.shorter.IsBasics := Step.not_isBasics_of_ne (by simp)
  have hlonger : ¬ Step.longer.IsBasics := Step.not_isBasics_of_ne (by simp)
  cases items with
  | nil =>
    cases items' with
    | nil => exact h.itemsNil
    | cons item' items' => exact h.itemsApart (by simp [itemShapes]) hshorter
  | cons item items =>
    cases items' with
    | nil => exact h.itemsApart (by simp [itemShapes]) hlonger
    | cons item' items' => exact h.itemsCons (h.holds item item') (h.holdsItems items items')

theorem StepInduction.holdsEntries (h : StepInduction op P PItems PEntries)
    (items items' : List (Basic × DbusType)) :
    PEntries items items' (entrySteps op items items') := by
  have hshorter : ¬ Step.shorter.IsBasics := Step.not_isBasics_of_ne (by simp)
  have hlonger : ¬ Step.longer.IsBasics := Step.not_isBasics_of_ne (by simp)
  cases items with
  | nil =>
    cases items' with
    | nil => exact h.entriesNil
    | cons item' items' => exact h.entriesApart (by simp [entryShapes]) hshorter
  | cons item items =>
    cases items' with
    | nil => exact h.entriesApart (by simp [entryShapes]) hlonger
    | cons item' items' =>
      obtain ⟨key, value⟩ := item
      obtain ⟨key', value'⟩ := item'
      exact h.entriesCons key key' (h.holds value value') (h.holdsEntries items items')
end

end StepInduction

/-- Two lists of basic values paired place by place. -/
def pairSteps (xs ys : List Basic) : List Step := List.zipWith Step.basics xs ys

theorem pairSteps_append {xs ys xs' ys' : List Basic} (h : xs.length = ys.length) :
    pairSteps (xs ++ xs') (ys ++ ys') = pairSteps xs ys ++ pairSteps xs' ys' :=
  List.zipWith_append h

/-- Leaves that are as many, and paired place by place. -/
def Paired (xs ys : List Basic) (steps : List Step) : Prop :=
  xs.length = ys.length ∧ steps = pairSteps xs ys

theorem Paired.append {xs ys xs' ys' : List Basic} {steps steps' : List Step}
    (h : Paired xs ys steps) (h' : Paired xs' ys' steps') :
    Paired (xs ++ xs') (ys ++ ys') (steps ++ steps') := by
  refine ⟨by rw [List.length_append, List.length_append, h.1, h'.1], ?_⟩
  rw [pairSteps_append h.1, h.2, h'.2]

theorem Paired.cons {xs ys : List Basic} {steps : List Step} (x y : Basic)
    (h : Paired xs ys steps) : Paired (x :: xs) (y :: ys) (.basics x y :: steps) := by
  refine ⟨by rw [List.length_cons, List.length_cons, h.1], ?_⟩
  rw [h.2, pairSteps, pairSteps, List.zipWith_cons_cons]

/-- Values of one shape are compared leaf by leaf. -/
theorem DbusType.steps_of_shape (op : Operator) {a b : DbusType} (h : a.shape = b.shape) :
    Paired a.leaves b.leaves (a.steps op b) := by
  have hinduction : StepInduction op
      (fun a b steps => a.shape = b.shape → Paired a.leaves b.leaves steps)
      (fun items items' steps => itemShapes items = itemShapes items' →
        Paired (itemLeaves items) (itemLeaves items') steps)
      (fun items items' steps => entryShapes items = entryShapes items' →
        Paired (entryLeaves items) (entryLeaves items') steps) := {
    left := fun ih hshape => ih hshape
    right := fun ih hshape => by simpa using ih (by simpa using hshape)
    basics := fun x y _ => ⟨rfl, rfl⟩
    array := fun _ _ _ _ ih hshape => ih (Shape.array.inj hshape).2
    struct := fun _ _ _ _ ih hshape => ih (Shape.struct.inj hshape).2
    dict := fun _ _ _ _ _ ih hshape => ih (Shape.dict.inj hshape).2.2
    apart := fun hne _ hshape => absurd hshape hne
    itemsNil := fun _ => ⟨rfl, rfl⟩
    itemsCons := fun ih ihs hshapes =>
      (ih (List.cons.inj hshapes).1).append (ihs (List.cons.inj hshapes).2)
    itemsApart := fun hne _ hshapes => absurd hshapes hne
    entriesNil := fun _ => ⟨rfl, rfl⟩
    entriesCons := fun key key' _ _ _ _ _ _ ih ihs hshapes =>
      ((ih (List.cons.inj hshapes).1).append (ihs (List.cons.inj hshapes).2)).cons key key'
    entriesApart := fun hne _ hshapes => absurd hshapes hne }
  exact hinduction.holds a b h

/-- Values between which only basic values are compared have one shape. -/
theorem DbusType.shape_of_steps {op : Operator} {a b : DbusType}
    (h : ∀ s ∈ a.steps op b, s.IsBasics) : a.shape = b.shape := by
  have hinduction : StepInduction op
      (fun a b steps => (∀ s ∈ steps, s.IsBasics) → a.shape = b.shape)
      (fun items items' steps => (∀ s ∈ steps, s.IsBasics) → itemShapes items = itemShapes items')
      (fun items items' steps =>
        (∀ s ∈ steps, s.IsBasics) → entryShapes items = entryShapes items') := {
    left := fun ih hbasics => ih hbasics
    right := fun ih hbasics => by simpa using ih hbasics
    basics := fun _ _ _ => rfl
    array := fun sig _ _ _ ih hbasics => congrArg (Shape.array sig) (ih hbasics)
    struct := fun sig _ _ _ ih hbasics => congrArg (Shape.struct sig) (ih hbasics)
    dict := fun key sig _ _ _ ih hbasics => congrArg (Shape.dict key sig) (ih hbasics)
    apart := fun _ hnot hbasics => absurd (hbasics _ List.mem_cons_self) hnot
    itemsNil := fun _ => rfl
    itemsCons := fun ih ihs hbasics => by
      obtain ⟨hhead, htail⟩ := List.forall_mem_append.mp hbasics
      rw [itemShapes, itemShapes, ih hhead, ihs htail]
    itemsApart := fun _ hnot hbasics => absurd (hbasics _ List.mem_cons_self) hnot
    entriesNil := fun _ => rfl
    entriesCons := fun _ _ _ _ _ _ _ _ ih ihs hbasics => by
      obtain ⟨hhead, htail⟩ := List.forall_mem_append.mp (List.forall_mem_cons.mp hbasics).2
      rw [entryShapes, entryShapes, ih hhead, ihs htail]
    entriesApart := fun _ hnot hbasics => absurd (hbasics _ List.mem_cons_self) hnot }
  exact hinduction.holds a b h

end Ultrabus
