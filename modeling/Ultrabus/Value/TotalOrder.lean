import Mathlib.Data.List.Sort
import Ultrabus.Lib.LexTree
import Ultrabus.Value.Compare
import Ultrabus.Value.Typing

/-! # The order of the values of one signature

Values of one signature have one skeleton of classes.  Without variants and doubles in it,
`operator<=>` is the lexicographic order of `LexTree` on what the values say:
`DbusType.tree` keeps of a value its basic values only, and puts the entries of a dict in
the order of their keys. -/

namespace Ultrabus

/-! ## Signatures without variants and doubles -/

mutual
def SigType.Orderable : SigType → Prop
  | .basic type => type ≠ .double
  | .variant => False
  | .array element => element.Orderable
  | .struct first rest => first.Orderable ∧ SigType.AllOrderable rest
  | .dict key value => key ≠ .double ∧ value.Orderable

def SigType.AllOrderable : List SigType → Prop
  | [] => True
  | type :: types => type.Orderable ∧ SigType.AllOrderable types
end

/-! ## The tree of a value -/

/-- The key of an entry before its value. -/
def entryNode (entry : List Int × LexTree (List Int)) : LexTree (List Int) :=
  .node [.leaf entry.1, entry.2]

mutual
/-- What a value says: numbers and texts at the leaves, and at every container its contents
    in the order that counts. -/
def DbusType.tree : DbusType → LexTree (List Int)
  | .basic value => .leaf value.rank
  | .array _ items => .node (itemTrees items)
  | .struct _ items => .node (itemTrees items)
  | .dict _ _ items =>
    .node (((entryTrees items).insertionSort fun e e' => e.1 ≤ e'.1).map entryNode)
  | .variant value => value.tree

def itemTrees : List DbusType → List (LexTree (List Int))
  | [] => []
  | item :: items => item.tree :: itemTrees items

def entryTrees : List (Basic × DbusType) → List (List Int × LexTree (List Int))
  | [] => []
  | (key, value) :: items => (key.rank, value.tree) :: entryTrees items
end

theorem orderedKey_of_type {t : BasicType} (ht : t ≠ .double) {k : Basic} (hk : k.type = t) :
    OrderedKey t k := by
  refine ⟨hk, ?_⟩
  cases k with
  | double bits => exact absurd hk.symm ht
  | _ => rfl

theorem mem_entryTrees {items : List (Basic × DbusType)} {e : List Int × LexTree (List Int)}
    (h : e ∈ entryTrees items) : ∃ item ∈ items, e = (item.1.rank, item.2.tree) := by
  induction items with
  | nil => cases h
  | cons item items ih =>
    obtain ⟨key, value⟩ := item
    rw [entryTrees, List.mem_cons] at h
    obtain rfl | h := h
    · exact ⟨_, List.mem_cons_self, rfl⟩
    · obtain ⟨item, hitem, he⟩ := ih h
      exact ⟨item, List.mem_cons_of_mem _ hitem, he⟩

/-- The map enumerates its entries in the order of their keys already. -/
theorem insertionSort_entryTrees {key : BasicType} {items : List (Basic × DbusType)}
    (hkey : key ≠ .double) (hkeys : ∀ item ∈ items, item.1.type = key)
    (hsorted : OrderedMap.Sorted Basic.less items) :
    (entryTrees items).insertionSort (fun e e' => e.1 ≤ e'.1) = entryTrees items := by
  apply List.Pairwise.insertionSort_eq
  induction items with
  | nil => exact .nil
  | cons item items ih =>
    obtain ⟨hfirst, hrest⟩ := List.pairwise_cons.mp hsorted
    obtain ⟨hitem, hitems⟩ := List.forall_mem_cons.mp hkeys
    refine .cons ?_ (ih hitems hrest)
    intro e he
    obtain ⟨item', hmem, rfl⟩ := mem_entryTrees he
    exact le_of_lt ((Basic.less_iff_rank (orderedKey_of_type hkey hitem)
      (orderedKey_of_type hkey (hitems item' hmem))).mp (hfirst item' hmem))

/-! ## The operator compares the trees -/

theorem compareText_eq_tree (a b : Bytes) :
    compareText a b =
      LexTree.compare (.leaf (a.map fun c => (c.toNat : Int)))
        (.leaf (b.map fun c => (c.toNat : Int))) := by
  rw [LexTree.compare, compareText]
  simp only [textLess_iff]
  obtain h | h | h := lt_trichotomy (a.map fun c => (c.toNat : Int))
    (b.map fun c => (c.toNat : Int))
  · rw [if_pos h, compare_lt_iff_lt.mpr h]
  · rw [h, if_neg (lt_irrefl _), if_neg (lt_irrefl _), compare_eq_iff_eq.mpr rfl]
  · rw [if_neg (not_lt_of_gt h), if_pos h, compare_gt_iff_gt.mpr h]

theorem compare_eq_tree (m n : Int) :
    Ord.compare m n = LexTree.compare (.leaf [m]) (.leaf [n]) := by
  rw [LexTree.compare]
  obtain h | rfl | h := lt_trichotomy m n
  · rw [compare_lt_iff_lt.mpr h, compare_lt_iff_lt.mpr ((singleton_lt_iff m n).mpr h)]
  · rw [compare_eq_iff_eq.mpr rfl, compare_eq_iff_eq.mpr rfl]
  · rw [compare_gt_iff_gt.mpr h, compare_gt_iff_gt.mpr ((singleton_lt_iff n m).mpr h)]

/-- Two values of one class are ordered, by number or text. -/
theorem Basic.threeWay_eq_tree {t : BasicType} (ht : t ≠ .double) {x y : Basic}
    (hx : x.type = t) (hy : y.type = t) :
    x.threeWay y = some (LexTree.compare (.leaf x.rank) (.leaf y.rank)) := by
  have hordered : t.ordersWith t = true := by cases t <;> rfl
  rw [Basic.threeWay_eq (hx.trans_ne ht) (hy.trans_ne ht), hx, hy, if_pos hordered]
  congr 1
  subst hx
  cases x <;> cases y <;> simp only [Basic.type, reduceCtorEq] at hy
  case double.double => exact absurd rfl ht
  all_goals
    simp only [Basic.exact, Basic.stored, Stored.exact, Exact.compare, Basic.rank,
      compare_eq_tree, compareText_eq_tree]

/-- Going on with the rest after a tie is the lexicographic order of the results. -/
theorem threeWay_then (o o' : Ordering) :
    (do let res ← .ok (some o)
        if res ≠ some .eq then return res
        .ok (some o') : Except Exception (Option Ordering)) = .ok (some (o.then o')) := by
  cases o <;> rfl

theorem threeWayItems_eq_tree {items items' : List DbusType}
    (h : ∀ p ∈ items.zip items', p.1.threeWay p.2 = .ok (some (p.1.tree.compare p.2.tree))) :
    threeWayItems items items' =
      .ok (some (LexTree.compareAll (itemTrees items) (itemTrees items'))) := by
  induction items generalizing items' with
  | nil => cases items' <;> rfl
  | cons item items ih =>
    cases items' with
    | nil => rfl
    | cons item' items' =>
      rw [List.zip_cons_cons, List.forall_mem_cons] at h
      rw [threeWayItems, ih h.2, h.1]
      exact threeWay_then _ _

theorem threeWayEntries_eq_tree {items items' : List (Basic × DbusType)}
    (hkeys : ∀ p ∈ items.zip items',
      p.1.1.threeWay p.2.1 = some (LexTree.compare (.leaf p.1.1.rank) (.leaf p.2.1.rank)))
    (h : ∀ p ∈ items.zip items',
      p.1.2.threeWay p.2.2 = .ok (some (p.1.2.tree.compare p.2.2.tree))) :
    threeWayEntries items items' =
      .ok (some (LexTree.compareAll ((entryTrees items).map entryNode)
        ((entryTrees items').map entryNode))) := by
  induction items generalizing items' with
  | nil => cases items' <;> rfl
  | cons item items ih =>
    cases items' with
    | nil => rfl
    | cons item' items' =>
      obtain ⟨key, value⟩ := item
      obtain ⟨key', value'⟩ := item'
      rw [List.zip_cons_cons, List.forall_mem_cons] at h hkeys
      have hentry : LexTree.compare (entryNode (key.rank, value.tree))
          (entryNode (key'.rank, value'.tree)) =
          (LexTree.compare (.leaf key.rank) (.leaf key'.rank)).then
            (value.tree.compare value'.tree) := by
        simp only [entryNode, LexTree.compare, LexTree.compareAll, Ordering.then_eq]
      simp only [entryTrees, List.map_cons, LexTree.compareAll, hentry, Ordering.then_assoc]
      rw [threeWayEntries, ih hkeys.2 h.2, h.1, hkeys.1]
      cases LexTree.compare (.leaf key.rank) (.leaf key'.rank) with
      | lt => rfl
      | gt => rfl
      | eq => exact threeWay_then _ _

mutual
/-- On two values of a signature without variants and doubles, `operator<=>` returns the
    order of their trees. -/
theorem DbusType.threeWay_eq_tree {t : SigType} (ht : t.Orderable) {a b : DbusType}
    (ha : a.HasType t) (hb : b.HasType t) :
    a.threeWay b = .ok (some (a.tree.compare b.tree)) := by
  cases t with
  | basic type =>
    cases ha with
    | @basic _ x hx =>
      cases hb with
      | @basic _ y hy =>
        simp only [DbusType.threeWay, DbusType.content, Basic.threeWay_eq_tree ht hx hy]
        rfl
  | variant => exact absurd ht id
  | array element =>
    cases ha with
    | @array _ items hitems =>
      cases hb with
      | @array _ items' hitems' =>
        rw [DbusType.threeWay]
        simp only [DbusType.content, ne_eq, not_true_eq_false, if_false]
        apply threeWayItems_eq_tree
        intro p hp
        obtain ⟨hmem, hmem'⟩ := List.of_mem_zip hp
        exact DbusType.threeWay_eq_tree (t := element) ht (hitems _ hmem) (hitems' _ hmem')
  | struct first rest =>
    cases ha with
    | @struct _ _ item items hitem hitems =>
      cases hb with
      | @struct _ _ item' items' hitem' hitems' =>
        have hlength := (HasTypes.length hitems).symm.trans (HasTypes.length hitems')
        rw [DbusType.threeWay]
        simp only [DbusType.content, ne_eq, not_true_eq_false, false_or, List.length_cons,
          hlength, if_false]
        apply threeWayItems_eq_tree
        rw [List.zip_cons_cons, List.forall_mem_cons]
        exact ⟨DbusType.threeWay_eq_tree ht.1 hitem hitem', threeWayAll_eq_tree ht.2 hitems hitems'⟩
  | dict key value =>
    cases ha with
    | @dict _ _ items hkeys hsorted hvalues =>
      cases hb with
      | @dict _ _ items' hkeys' hsorted' hvalues' =>
        rw [DbusType.threeWay, DbusType.tree, DbusType.tree,
          insertionSort_entryTrees ht.1 hkeys hsorted,
          insertionSort_entryTrees ht.1 hkeys' hsorted']
        simp only [DbusType.content, ne_eq, not_true_eq_false, if_false]
        apply threeWayEntries_eq_tree
        · intro p hp
          obtain ⟨hmem, hmem'⟩ := List.of_mem_zip hp
          exact Basic.threeWay_eq_tree ht.1 (hkeys _ hmem) (hkeys' _ hmem')
        · intro p hp
          obtain ⟨hmem, hmem'⟩ := List.of_mem_zip hp
          exact DbusType.threeWay_eq_tree (t := value) ht.2 (hvalues _ hmem) (hvalues' _ hmem')

theorem threeWayAll_eq_tree {types : List SigType} (htypes : SigType.AllOrderable types)
    {items items' : List DbusType} (hitems : HasTypes types items)
    (hitems' : HasTypes types items') :
    ∀ p ∈ items.zip items', p.1.threeWay p.2 = .ok (some (p.1.tree.compare p.2.tree)) := by
  cases types with
  | nil =>
    cases hitems
    intro p hp
    cases hp
  | cons type types =>
    cases hitems with
    | cons hitem hitems =>
      cases hitems' with
      | cons hitem' hitems' =>
        rw [List.zip_cons_cons, List.forall_mem_cons]
        exact ⟨DbusType.threeWay_eq_tree htypes.1 hitem hitem',
          threeWayAll_eq_tree htypes.2 hitems hitems'⟩
end

/-! ## The tree says all -/

theorem Basic.eq_of_sameKey {x y : Basic} (hx : x.NotDouble) (h : x.sameKey y = true) :
    x = y := by
  unfold Basic.sameKey at h
  split at h
  case h_1 => exact absurd rfl hx
  case h_2 => exact of_decide_eq_true h

theorem Basic.eq_of_rank {t : BasicType} (ht : t ≠ .double) {x y : Basic} (hx : x.type = t)
    (hy : y.type = t) (h : x.rank = y.rank) : x = y :=
  Basic.eq_of_sameKey (hx.trans_ne ht)
    ((Basic.rank_eq_iff (orderedKey_of_type ht hx) (orderedKey_of_type ht hy)).mp h)

theorem eq_of_itemTrees {items items' : List DbusType}
    (h : ∀ p ∈ items.zip items', p.1.tree = p.2.tree → p.1 = p.2)
    (htrees : itemTrees items = itemTrees items') : items = items' := by
  induction items generalizing items' with
  | nil =>
    cases items' with
    | nil => rfl
    | cons item' items' => cases htrees
  | cons item items ih =>
    cases items' with
    | nil => cases htrees
    | cons item' items' =>
      rw [List.zip_cons_cons, List.forall_mem_cons] at h
      simp only [itemTrees, List.cons.injEq] at htrees
      have hitem : item = item' := h.1 htrees.1
      rw [hitem, ih h.2 htrees.2]

theorem eq_of_entryTrees {items items' : List (Basic × DbusType)}
    (hkeys : ∀ p ∈ items.zip items', p.1.1.rank = p.2.1.rank → p.1.1 = p.2.1)
    (h : ∀ p ∈ items.zip items', p.1.2.tree = p.2.2.tree → p.1.2 = p.2.2)
    (htrees : entryTrees items = entryTrees items') : items = items' := by
  induction items generalizing items' with
  | nil =>
    cases items' with
    | nil => rfl
    | cons item' items' => cases htrees
  | cons item items ih =>
    cases items' with
    | nil => cases htrees
    | cons item' items' =>
      rw [List.zip_cons_cons, List.forall_mem_cons] at h hkeys
      simp only [entryTrees, List.cons.injEq, Prod.mk.injEq] at htrees
      have hitem : item = item' := Prod.ext (hkeys.1 htrees.1.1) (h.1 htrees.1.2)
      rw [hitem, ih hkeys.2 h.2 htrees.2]

theorem entryNode_injective : Function.Injective entryNode := by
  intro e e' h
  simp only [entryNode, LexTree.node.injEq, List.cons.injEq, LexTree.leaf.injEq, and_true] at h
  exact Prod.ext h.1 h.2

mutual
/-- Values of one signature with one tree are the same. -/
theorem DbusType.eq_of_tree {t : SigType} (ht : t.Orderable) {a b : DbusType}
    (ha : a.HasType t) (hb : b.HasType t) (h : a.tree = b.tree) : a = b := by
  cases t with
  | basic type =>
    cases ha with
    | @basic _ x hx =>
      cases hb with
      | @basic _ y hy => rw [Basic.eq_of_rank ht hx hy (LexTree.leaf.inj h)]
  | variant => exact absurd ht id
  | array element =>
    cases ha with
    | @array _ items hitems =>
      cases hb with
      | @array _ items' hitems' =>
        rw [eq_of_itemTrees (fun p hp => ?_) (LexTree.node.inj h)]
        obtain ⟨hmem, hmem'⟩ := List.of_mem_zip hp
        exact DbusType.eq_of_tree (t := element) ht (hitems _ hmem) (hitems' _ hmem')
  | struct first rest =>
    cases ha with
    | @struct _ _ item items hitem hitems =>
      cases hb with
      | @struct _ _ item' items' hitem' hitems' =>
        obtain ⟨hfirst, hrest⟩ := List.cons.inj (LexTree.node.inj h)
        rw [DbusType.eq_of_tree ht.1 hitem hitem' hfirst,
          eq_of_itemTrees (all_eq_of_tree ht.2 hitems hitems') hrest]
  | dict key value =>
    cases ha with
    | @dict _ _ items hkeys hsorted hvalues =>
      cases hb with
      | @dict _ _ items' hkeys' hsorted' hvalues' =>
        rw [DbusType.tree, DbusType.tree, insertionSort_entryTrees ht.1 hkeys hsorted,
          insertionSort_entryTrees ht.1 hkeys' hsorted'] at h
        have htrees := List.map_injective_iff.mpr entryNode_injective (LexTree.node.inj h)
        rw [eq_of_entryTrees (fun p hp => ?_) (fun p hp => ?_) htrees]
        · obtain ⟨hmem, hmem'⟩ := List.of_mem_zip hp
          exact Basic.eq_of_rank ht.1 (hkeys _ hmem) (hkeys' _ hmem')
        · obtain ⟨hmem, hmem'⟩ := List.of_mem_zip hp
          exact DbusType.eq_of_tree (t := value) ht.2 (hvalues _ hmem) (hvalues' _ hmem')

theorem all_eq_of_tree {types : List SigType} (htypes : SigType.AllOrderable types)
    {items items' : List DbusType} (hitems : HasTypes types items)
    (hitems' : HasTypes types items') :
    ∀ p ∈ items.zip items', p.1.tree = p.2.tree → p.1 = p.2 := by
  cases types with
  | nil =>
    cases hitems
    intro p hp
    cases hp
  | cons type types =>
    cases hitems with
    | cons hitem hitems =>
      cases hitems' with
      | cons hitem' hitems' =>
        rw [List.zip_cons_cons, List.forall_mem_cons]
        exact ⟨DbusType.eq_of_tree htypes.1 hitem hitem',
          all_eq_of_tree htypes.2 hitems hitems'⟩
end

/-! ## The order -/

/-- `a <=> b` is less or equivalent. -/
def AtMost (a b : DbusType) : Prop :=
  a.threeWay b = .ok (some .lt) ∨ a.threeWay b = .ok (some .eq)

/-- What a total order, the lexicographic one, says of three values. -/
structure OrderLaws (a b c : DbusType) : Prop where
  lexicographic : a.threeWay b = .ok (some (a.tree.compare b.tree))
  trans : AtMost a b → AtMost b c → AtMost a c
  antisymm : AtMost a b → AtMost b a → a.threeWay b = .ok (some .eq)
  equivalent : a.threeWay b = .ok (some .eq) ↔ a = b

theorem atMost_iff {t : SigType} (ht : t.Orderable) {a b : DbusType} (ha : a.HasType t)
    (hb : b.HasType t) : AtMost a b ↔ a.tree ≤ b.tree := by
  rw [AtMost, DbusType.threeWay_eq_tree ht ha hb, ← LexTree.compare_ne_gt]
  cases a.tree.compare b.tree <;> simp

/-- The values of one signature without variants and doubles are totally ordered. -/
theorem threeWay_totalOrder {t : SigType} (ht : t.Orderable) {a b c : DbusType}
    (ha : a.HasType t) (hb : b.HasType t) (hc : c.HasType t) : OrderLaws a b c := by
  have hequivalent : a.threeWay b = .ok (some .eq) ↔ a.tree = b.tree := by
    rw [DbusType.threeWay_eq_tree ht ha hb, Except.ok.injEq, Option.some.injEq,
      LexTree.compare_eq_iff]
  exact {
    lexicographic := DbusType.threeWay_eq_tree ht ha hb
    trans := by
      rw [atMost_iff ht ha hb, atMost_iff ht hb hc, atMost_iff ht ha hc]
      exact le_trans
    antisymm := by
      rw [atMost_iff ht ha hb, atMost_iff ht hb ha, hequivalent]
      exact le_antisymm
    equivalent := by
      rw [hequivalent]
      exact ⟨DbusType.eq_of_tree ht ha hb, fun h => h ▸ rfl⟩ }

theorem threeWay_totalOrder_dicts :
    OrderLaws
      (.dict .unixFd (SigType.dict .unixFd (.basic .string)).render
        [(.unixFd 1, .basic (.string (text "a")))])
      (.dict .unixFd (SigType.dict .unixFd (.basic .string)).render
        [(.unixFd 1, .basic (.string (text "a"))), (.unixFd 2, .basic (.string []))])
      (.dict .unixFd (SigType.dict .unixFd (.basic .string)).render
        [(.unixFd 1, .basic (.string (text "b")))]) := by
  apply threeWay_totalOrder (t := .dict .unixFd (.basic .string))
  · simp [SigType.Orderable]
  · exact .dict (by simp [Basic.type]) (by simp [OrderedMap.Sorted])
      (by simpa using .basic rfl)
  · exact .dict (by simp [Basic.type]) (by simp [OrderedMap.Sorted, Basic.less])
      (by simpa using ⟨.basic rfl, .basic rfl⟩)
  · exact .dict (by simp [Basic.type]) (by simp [OrderedMap.Sorted])
      (by simpa using .basic rfl)

end Ultrabus
