import Ultrabus.Value.Equality

/-! # Three-way comparison of D-Bus values

What `operator<=>` says of two values without doubles in the two operand orders, and what
it has to do with `operator==`.  Which classes are ordered with each other is written down
twice for every pair, once in the class of either operand; `BasicType.oneSided_iff` lists
the pairs where the two disagree. -/

namespace Ultrabus

/-- The class of the left operand orders the pair, that of the right one does not. -/
def BasicType.OneSided (lhs rhs : BasicType) : Prop :=
  lhs.ordersWith rhs = true ∧ rhs.ordersWith lhs = false

instance (lhs rhs : BasicType) : Decidable (lhs.OneSided rhs) :=
  inferInstanceAs (Decidable (_ ∧ _))

theorem BasicType.oneSided_iff (lhs rhs : BasicType) :
    lhs.OneSided rhs ↔
      lhs = .uint64 ∧ (rhs = .byte ∨ rhs = .uint16 ∨ rhs = .uint32) ∨
        lhs = .unixFd ∧
          (rhs = .byte ∨ rhs = .int16 ∨ rhs = .uint16 ∨ rhs = .int64 ∨ rhs = .double) := by
  cases lhs <;> cases rhs <;> decide

/-! ## Pairs of the table -/

theorem Basic.isText_eq_of_ordersWith {x y : Basic} (hx : x.NotDouble) (hy : y.NotDouble)
    (h : x.type.ordersWith y.type = true) : x.stored.isText = y.stored.isText := by
  by_contra hne
  have hnone := Basic.threeWay_of_isText_ne hne
  rw [Basic.threeWay_eq hx hy, if_pos h] at hnone
  cases hnone

/-- Ordered values are equivalent only if they are the same number or text. -/
theorem Basic.compare_eq_iff {x y : Basic} (hx : x.NotDouble) (hy : y.NotDouble)
    (h : x.type.ordersWith y.type = true) :
    x.exact.compare y.exact = .eq ↔ x.exact = y.exact := by
  have htext := Basic.isText_eq_of_ordersWith hx hy h
  unfold Basic.exact
  obtain ⟨s, m, hx⟩ | ⟨a, hx⟩ := hx.stored <;> obtain ⟨t, n, hy⟩ | ⟨b, hy⟩ := hy.stored <;>
    rw [hx, hy] at htext ⊢
  case inl.inl => simp only [Stored.exact, Exact.compare, compare_eq_iff_eq, Exact.number.injEq]
  case inl.inr => cases htext
  case inr.inl => cases htext
  case inr.inr => simp only [Stored.exact, Exact.compare, compareText_eq_iff, Exact.text.injEq]

/-- The table keeps conversion away: a wrapped pair is unordered from either side. -/
theorem Basic.wrapped_unordered {x y : Basic} (hx : x.NotDouble) (hy : y.NotDouble)
    (h : x.wrapped y = true) : x.type.ordersWith y.type = false := by
  by_contra hordered
  rw [Bool.not_eq_false] at hordered
  have heq : x.threeWay y = some .eq := by
    rw [Basic.threeWay, if_pos hordered]
    unfold Basic.wrapped at h
    split at h
    case h_1 s m t n hx hy =>
      simp only [Bool.and_eq_true, decide_eq_true_eq] at h
      rw [hx, hy, Stored.threeWay, h.2]
      simp
    case h_2 => cases h
  rw [Basic.threeWay_eq hx hy, if_pos hordered, Option.some.injEq,
    Basic.compare_eq_iff hx hy hordered] at heq
  obtain ⟨m, n, hm, hn, hne⟩ := Basic.wrapped_numbers h
  rw [hm, hn, Exact.number.injEq] at heq
  exact hne heq

theorem Linked.exact_eq {x y : Basic} (h : Linked x y) (hx : x.NotDouble) (hy : y.NotDouble)
    (hordered : x.type.ordersWith y.type = true) : x.exact = y.exact := by
  obtain hexact | hwrapped := (linked_iff x y).mp h
  · exact hexact
  · rw [Basic.wrapped_unordered hx hy hwrapped] at hordered
    cases hordered

/-! ## Places without doubles -/

/-- A pair of basic values here is no pair of doubles. -/
def Step.NotDouble : Step → Prop
  | .basics lhs rhs => lhs.NotDouble ∧ rhs.NotDouble
  | _ => True

/-- The basic values compared are leaves of the two values. -/
theorem DbusType.steps_leaves {op : Operator} {a b : DbusType} {x y : Basic}
    (h : Step.basics x y ∈ a.steps op b) : x ∈ a.leaves ∧ y ∈ b.leaves := by
  have hinduction : StepInduction op
      (fun a b steps => Step.basics x y ∈ steps → x ∈ a.leaves ∧ y ∈ b.leaves)
      (fun items items' steps => Step.basics x y ∈ steps →
        x ∈ itemLeaves items ∧ y ∈ itemLeaves items')
      (fun items items' steps => Step.basics x y ∈ steps →
        x ∈ entryLeaves items ∧ y ∈ entryLeaves items') := {
    left := fun ih hmem => ih hmem
    right := fun ih hmem => by simpa using ih hmem
    basics := fun _ _ hmem => by simpa [DbusType.leaves] using hmem
    array := fun _ _ _ _ ih hmem => ih hmem
    struct := fun _ _ _ _ ih hmem => ih hmem
    dict := fun _ _ _ _ _ ih hmem => ih hmem
    apart := fun _ hnot hmem => absurd ⟨x, y, (List.mem_singleton.mp hmem).symm⟩ hnot
    itemsNil := fun hmem => absurd hmem List.not_mem_nil
    itemsCons := fun ih ihs hmem => by
      rw [itemLeaves, itemLeaves]
      obtain hmem | hmem := List.mem_append.mp hmem
      · exact (ih hmem).imp (List.mem_append_left _) (List.mem_append_left _)
      · exact (ihs hmem).imp (List.mem_append_right _) (List.mem_append_right _)
    itemsApart := fun _ hnot hmem => absurd ⟨x, y, (List.mem_singleton.mp hmem).symm⟩ hnot
    entriesNil := fun hmem => absurd hmem List.not_mem_nil
    entriesCons := fun _ _ _ _ _ _ _ _ ih ihs hmem => by
      rw [entryLeaves, entryLeaves, List.mem_cons, List.mem_cons]
      rw [List.mem_cons, List.mem_append, Step.basics.injEq] at hmem
      obtain ⟨hx, hy⟩ | hmem | hmem := hmem
      · exact ⟨.inl hx, .inl hy⟩
      · exact (ih hmem).imp (fun h => .inr (List.mem_append_left _ h))
          fun h => .inr (List.mem_append_left _ h)
      · exact (ihs hmem).imp (fun h => .inr (List.mem_append_right _ h))
          fun h => .inr (List.mem_append_right _ h)
    entriesApart := fun _ hnot hmem => absurd ⟨x, y, (List.mem_singleton.mp hmem).symm⟩ hnot }
  exact hinduction.holds a b h

theorem DbusType.DoubleFree.steps {a b : DbusType} (ha : a.DoubleFree) (hb : b.DoubleFree)
    (op : Operator) : ∀ s ∈ a.steps op b, s.NotDouble := by
  intro s hs
  cases s with
  | basics x y =>
    obtain ⟨hx, hy⟩ := DbusType.steps_leaves hs
    exact ⟨ha x hx, hb y hy⟩
  | _ => trivial

/-! ## Where the comparison is refused -/

/-- Both operands hold the same number or text here. -/
def Step.Same : Step → Prop
  | .basics lhs rhs => lhs.exact = rhs.exact
  | _ => False

/-- The left operand does not order what it finds here. -/
def Step.Unordered : Step → Prop
  | .basics lhs rhs => lhs.type.ordersWith rhs.type = false
  | .unlike => True
  | _ => False

/-- Behind places where the operands are the same, one that is not ordered. -/
def Refused (steps : List Step) : Prop := Reaches Step.Same Step.Unordered steps

/-- What `operator<=>` makes of its places. -/
def verdict (steps : List Step) : Except Exception (Option Ordering) :=
  firstVerdict Step.threeWay? (.ok (some .eq)) steps

@[simp] theorem verdict_unlike (steps : List Step) : verdict (.unlike :: steps) = .ok none := rfl
@[simp] theorem verdict_clash (steps : List Step) :
    verdict (.clash :: steps) = .error .badCast := rfl
@[simp] theorem verdict_shorter (steps : List Step) :
    verdict (.shorter :: steps) = .ok (some .lt) := rfl
@[simp] theorem verdict_longer (steps : List Step) :
    verdict (.longer :: steps) = .ok (some .gt) := rfl

theorem verdict_basics {x y : Basic} (hx : x.NotDouble) (hy : y.NotDouble) (steps : List Step) :
    verdict (.basics x y :: steps) =
      if x.type.ordersWith y.type = false then .ok none
      else if x.exact = y.exact then verdict steps
      else .ok (some (x.exact.compare y.exact)) := by
  rw [verdict, firstVerdict_cons, Step.threeWay?, Basic.threeWay_eq hx hy, verdict]
  cases hordered : x.type.ordersWith y.type with
  | false => simp
  | true =>
    have hcompare := Basic.compare_eq_iff hx hy hordered
    by_cases hexact : x.exact = y.exact
    · have heq := hcompare.mpr hexact
      rw [heq, if_pos hexact]
      simp
    · simp [hexact, hcompare]

theorem verdict_eq_none_iff {steps : List Step} (hsteps : ∀ s ∈ steps, s.NotDouble) :
    verdict steps = .ok none ↔ Refused steps := by
  induction steps with
  | nil => exact iff_of_false (fun h => by cases h) (reaches_nil _ _)
  | cons s steps ih =>
    obtain ⟨hs, hrest⟩ := List.forall_mem_cons.mp hsteps
    rw [Refused, reaches_cons, ← Refused, ← ih hrest]
    cases s with
    | basics x y =>
      rw [verdict_basics hs.1 hs.2]
      cases hordered : x.type.ordersWith y.type with
      | false => simp [Step.Unordered, hordered]
      | true => by_cases hexact : x.exact = y.exact <;>
          simp [Step.Unordered, Step.Same, hordered, hexact]
    | unlike => simp [Step.Unordered]
    | _ => simp [Step.Unordered, Step.Same]

/-! ## Swapping the operands -/

/-- Behind places where the operands are the same and ordered with each other comes one
    that only one of them orders.  If they are the same there too, that one goes on, and it
    is not refused further on. -/
inductive OneWay : List Step → Prop where
  | ahead {x y : Basic} {steps : List Step} : x.type.OneSided y.type →
      (x.exact = y.exact → ¬ Refused steps) → OneWay (.basics x y :: steps)
  | back {x y : Basic} {steps : List Step} : y.type.OneSided x.type →
      (x.exact = y.exact → ¬ Refused (steps.map Step.swap)) → OneWay (.basics x y :: steps)
  | there {x y : Basic} {steps : List Step} : x.type.ordersWith y.type = true →
      y.type.ordersWith x.type = true → x.exact = y.exact → OneWay steps →
      OneWay (.basics x y :: steps)

theorem Step.NotDouble.swap {s : Step} (h : s.NotDouble) : s.swap.NotDouble := by
  cases s with
  | basics x y => exact ⟨h.2, h.1⟩
  | _ => trivial

theorem oneWay_basics (x y : Basic) (steps : List Step) :
    OneWay (.basics x y :: steps) ↔
      x.type.OneSided y.type ∧ (x.exact = y.exact → ¬ Refused steps) ∨
        y.type.OneSided x.type ∧ (x.exact = y.exact → ¬ Refused (steps.map Step.swap)) ∨
        x.type.ordersWith y.type = true ∧ y.type.ordersWith x.type = true ∧
          x.exact = y.exact ∧ OneWay steps := by
  constructor
  · intro h
    cases h with
    | ahead hsided hrest => exact .inl ⟨hsided, hrest⟩
    | back hsided hrest => exact .inr (.inl ⟨hsided, hrest⟩)
    | there hxy hyx hexact hrest => exact .inr (.inr ⟨hxy, hyx, hexact, hrest⟩)
  · rintro (⟨hsided, hrest⟩ | ⟨hsided, hrest⟩ | ⟨hxy, hyx, hexact, hrest⟩)
    · exact .ahead hsided hrest
    · exact .back hsided hrest
    · exact .there hxy hyx hexact hrest

/-- The two operand orders give reverse results unless a place is ordered one way only. -/
theorem verdict_swap_iff {steps : List Step} (hsteps : ∀ s ∈ steps, s.NotDouble)
    {r r' : Option Ordering} (hr : verdict steps = .ok r)
    (hr' : verdict (steps.map Step.swap) = .ok r') :
    r' = r.map Ordering.swap ↔ ¬ OneWay steps := by
  induction steps with
  | nil =>
    cases hr
    cases hr'
    refine iff_of_true rfl fun h => ?_
    cases h
  | cons s steps ih =>
    obtain ⟨hs, hrest⟩ := List.forall_mem_cons.mp hsteps
    have hswapped : ∀ s ∈ steps.map Step.swap, s.NotDouble := by
      intro s' hs'
      obtain ⟨s, hs, rfl⟩ := List.mem_map.mp hs'
      exact (hrest s hs).swap
    cases s with
    | basics x y =>
      obtain ⟨hx, hy⟩ := hs
      rw [List.map_cons, Step.swap, verdict_basics hy hx] at hr'
      simp only [eq_comm (a := y.exact)] at hr'
      rw [verdict_basics hx hy] at hr
      rw [oneWay_basics, BasicType.OneSided, BasicType.OneSided]
      cases hxy : x.type.ordersWith y.type <;> cases hyx : y.type.ordersWith x.type <;>
        simp only [hxy, hyx, if_true, reduceCtorEq, if_false, false_and, and_false, false_or,
          or_false, true_and, not_false_eq_true, iff_true, and_true] at hr hr' ⊢
      case false.false =>
        cases hr
        cases hr'
        rfl
      case false.true =>
        obtain rfl := Except.ok.inj hr
        by_cases hexact : x.exact = y.exact
        · rw [if_pos hexact] at hr'
          simp [hexact, ← verdict_eq_none_iff hswapped, hr']
        · rw [if_neg hexact] at hr'
          simp [hexact, ← Except.ok.inj hr']
      case true.false =>
        obtain rfl := Except.ok.inj hr'
        by_cases hexact : x.exact = y.exact
        · rw [if_pos hexact] at hr
          simp [hexact, ← verdict_eq_none_iff hrest, hr, eq_comm (a := none)]
        · rw [if_neg hexact] at hr
          simp [hexact, ← Except.ok.inj hr]
      case true.true =>
        by_cases hexact : x.exact = y.exact
        · rw [if_pos hexact] at hr hr'
          simp only [hexact, true_and]
          exact ih hrest hr hr'
        · rw [if_neg hexact] at hr hr'
          simp [hexact, ← Except.ok.inj hr, ← Except.ok.inj hr', Exact.compare_swap x.exact]
    | clash => cases hr
    | unlike | shorter | longer =>
      cases hr
      cases hr'
      refine iff_of_true rfl fun h => ?_
      cases h

/-- `b <=> a` is the reverse of `a <=> b` unless the comparison comes to a place that only
    one of the operands orders. -/
theorem threeWay_swap_iff {a b : DbusType} (ha : a.DoubleFree) (hb : b.DoubleFree)
    {r r' : Option Ordering} (hr : a.threeWay b = .ok r) (hr' : b.threeWay a = .ok r') :
    r' = r.map Ordering.swap ↔ ¬ OneWay (a.steps .threeWay b) := by
  rw [DbusType.threeWay_eq] at hr hr'
  rw [DbusType.steps_swap .threeWay a b] at hr'
  exact verdict_swap_iff (ha.steps hb .threeWay) hr hr'

theorem threeWay_swap_arrays :
    ¬ OneWay (DbusType.steps .threeWay
      (.array (text "ai") [.basic (.int32 1), .basic (.int32 2)])
      (.array (text "ai") [.basic (.int32 1), .basic (.int32 3)])) := by
  have hless : DbusType.threeWay (.array (text "ai") [.basic (.int32 1), .basic (.int32 2)])
      (.array (text "ai") [.basic (.int32 1), .basic (.int32 3)]) = .ok (some .lt) := rfl
  have hgreater : DbusType.threeWay (.array (text "ai") [.basic (.int32 1), .basic (.int32 3)])
      (.array (text "ai") [.basic (.int32 1), .basic (.int32 2)]) = .ok (some .gt) := rfl
  refine (threeWay_swap_iff ?_ ?_ hless hgreater).mp rfl
  · simp [DbusType.DoubleFree, DbusType.leaves, itemLeaves, Basic.NotDouble, Basic.type]
  · simp [DbusType.DoubleFree, DbusType.leaves, itemLeaves, Basic.NotDouble, Basic.type]

/-- An integer of 64 bits without sign is less than a byte to which it is not ordered. -/
theorem uint64_byte_not_swapped :
    (DbusType.basic (.uint64 5)).Coherent ∧ (DbusType.basic (.byte 7)).Coherent ∧
      (DbusType.basic (.uint64 5)).threeWay (.basic (.byte 7)) = .ok (some .lt) ∧
      (DbusType.basic (.byte 7)).threeWay (.basic (.uint64 5)) = .ok none :=
  ⟨.basic trivial trivial (by decide), .basic trivial trivial (by decide), rfl, rfl⟩

/-! ## Equivalent and equal values -/

/-- The basic values of the two, leaf by leaf, are of classes that the table orders. -/
def OrderedLeaves (a b : DbusType) : Prop :=
  List.Forall₂ (fun x y => x.type.ordersWith y.type = true ∧ y.type.ordersWith x.type = true)
    a.leaves b.leaves

/-- At some leaf the basic values are of classes that the table leaves unordered. -/
def UnorderedLeaf (a b : DbusType) : Prop :=
  ∃ p ∈ a.leaves.zip b.leaves,
    p.1.type.ordersWith p.2.type = false ∧ p.2.type.ordersWith p.1.type = false

theorem Step.threeWay?_basics_eq_none {x y : Basic} (hx : x.NotDouble) (hy : y.NotDouble) :
    (Step.basics x y).threeWay? = none ↔
      x.type.ordersWith y.type = true ∧ x.exact = y.exact := by
  rw [Step.threeWay?, Basic.threeWay_eq hx hy]
  cases hordered : x.type.ordersWith y.type with
  | false => simp
  | true => simp [Basic.compare_eq_iff hx hy hordered]

/-- Equivalent values are equal. -/
theorem DbusType.equal_of_equivalent {a b : DbusType} (ha : a.DoubleFree) (hb : b.DoubleFree)
    (h : a.threeWay b = .ok (some .eq)) : a.equal b = .ok true := by
  rw [DbusType.threeWay_eq, firstVerdict_eq_tie_iff fun s => s.threeWay?_ne_eq] at h
  have hshape : a.shape = b.shape :=
    DbusType.shape_of_steps fun s hs => (s.threeWay?_eq_none.mp (h s hs)).isBasics
  obtain ⟨hlength, hsteps⟩ := DbusType.steps_of_shape .threeWay hshape
  rw [DbusType.equal_iff_linked ha hb]
  refine ⟨hshape, (forall_mem_pairSteps hlength fun s => ∀ x y, s = .basics x y → Linked x y).mp
    ?_ |>.imp fun x y hlinked => hlinked x y rfl⟩
  rintro s hs x y rfl
  rw [← hsteps] at hs
  obtain ⟨hx, hy⟩ := ha.steps hb .threeWay _ hs
  exact .inl ((Step.threeWay?_basics_eq_none hx hy).mp (h _ hs)).2

theorem DbusType.steps_of_equal {a b : DbusType} (ha : a.DoubleFree) (hb : b.DoubleFree)
    (h : a.equal b = .ok true) (op : Operator) :
    a.steps op b = pairSteps a.leaves b.leaves ∧ List.Forall₂ Linked a.leaves b.leaves :=
  ⟨(DbusType.steps_of_shape op ((DbusType.equal_iff_linked ha hb).mp h).1).2,
    ((DbusType.equal_iff_linked ha hb).mp h).2⟩

theorem verdict_of_ordered {xs ys : List Basic} (hlinked : List.Forall₂ Linked xs ys)
    (hxs : ∀ x ∈ xs, x.NotDouble) (hys : ∀ y ∈ ys, y.NotDouble)
    (hordered : List.Forall₂ (fun x y => x.type.ordersWith y.type = true ∧
      y.type.ordersWith x.type = true) xs ys) :
    verdict (pairSteps xs ys) = .ok (some .eq) := by
  induction hlinked with
  | nil => rfl
  | @cons x y xs ys hhead _ ih =>
    obtain ⟨hx, hxs⟩ := List.forall_mem_cons.mp hxs
    obtain ⟨hy, hys⟩ := List.forall_mem_cons.mp hys
    obtain ⟨⟨hxy, -⟩, hrest⟩ := List.forall₂_cons.mp hordered
    rw [pairSteps, List.zipWith_cons_cons, verdict_basics hx hy, if_neg (by simp [hxy]),
      if_pos (hhead.exact_eq hx hy hxy)]
    exact ih hxs hys hrest

theorem verdict_of_unordered {xs ys : List Basic} (hlinked : List.Forall₂ Linked xs ys)
    (hxs : ∀ x ∈ xs, x.NotDouble) (hys : ∀ y ∈ ys, y.NotDouble)
    (hunordered : ∃ p ∈ xs.zip ys, p.1.type.ordersWith p.2.type = false) :
    verdict (pairSteps xs ys) = .ok none := by
  induction hlinked with
  | nil => simp at hunordered
  | @cons x y xs ys hhead _ ih =>
    obtain ⟨hx, hxs⟩ := List.forall_mem_cons.mp hxs
    obtain ⟨hy, hys⟩ := List.forall_mem_cons.mp hys
    rw [pairSteps, List.zipWith_cons_cons, verdict_basics hx hy]
    cases hxy : x.type.ordersWith y.type with
    | false => rfl
    | true =>
      rw [if_neg (by simp), if_pos (hhead.exact_eq hx hy hxy)]
      obtain ⟨p, hp, hfalse⟩ := hunordered
      rw [List.zip_cons_cons, List.mem_cons] at hp
      obtain rfl | hp := hp
      · rw [hxy] at hfalse
        cases hfalse
      · exact ih hxs hys ⟨p, hp, hfalse⟩

/-- Equivalent values are equal; equal values are equivalent where the table orders them
    throughout, and unordered where it leaves some pair of classes out. -/
theorem threeWay_equal {a b : DbusType} (ha : a.DoubleFree) (hb : b.DoubleFree) :
    (a.threeWay b = .ok (some .eq) → a.equal b = .ok true) ∧
      (a.equal b = .ok true → OrderedLeaves a b → a.threeWay b = .ok (some .eq)) ∧
      (a.equal b = .ok true → UnorderedLeaf a b → a.threeWay b = .ok none) := by
  refine ⟨DbusType.equal_of_equivalent ha hb, ?_, ?_⟩
  · intro hequal hordered
    obtain ⟨hsteps, hlinked⟩ := DbusType.steps_of_equal ha hb hequal .threeWay
    rw [DbusType.threeWay_eq, hsteps]
    exact verdict_of_ordered hlinked ha hb hordered
  · rintro hequal ⟨p, hp, hfalse, -⟩
    obtain ⟨hsteps, hlinked⟩ := DbusType.steps_of_equal ha hb hequal .threeWay
    rw [DbusType.threeWay_eq, hsteps]
    exact verdict_of_unordered hlinked ha hb ⟨p, hp, hfalse⟩

/-- `true` and 1, in a variant, in two arrays. -/
theorem threeWay_equal_arrays :
    DbusType.threeWay (.array (text "av") [.variant (.basic (.boolean true))])
      (.array (text "av") [.variant (.basic (.int32 1))]) = .ok none := by
  refine (threeWay_equal ?_ ?_).2.2 rfl ⟨(.boolean true, .int32 1), ?_, rfl, rfl⟩
  · simp [DbusType.DoubleFree, DbusType.leaves, itemLeaves, Basic.NotDouble, Basic.type]
  · simp [DbusType.DoubleFree, DbusType.leaves, itemLeaves, Basic.NotDouble, Basic.type]
  · simp [DbusType.leaves, itemLeaves]

theorem boolean_int32_equal_unordered :
    (DbusType.basic (.boolean true)).Coherent ∧ (DbusType.basic (.int32 1)).Coherent ∧
      (DbusType.basic (.boolean true)).equal (.basic (.int32 1)) = .ok true ∧
      (DbusType.basic (.boolean true)).threeWay (.basic (.int32 1)) = .ok none :=
  ⟨.basic trivial trivial (by decide), .basic trivial trivial (by decide), rfl, rfl⟩

end Ultrabus
