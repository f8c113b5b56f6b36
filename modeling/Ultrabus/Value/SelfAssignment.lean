import Ultrabus.Lib.References
import Ultrabus.Value.Objects

/-! # Assignment of a part to its container

`operator=` of `dbus_array`, `dbus_struct` and `dbus_dict`, statement by statement, on an operand
that may be a part of the assigned object at any depth.  Only the object itself is recognised as
its own operand; a part of it goes with the old content. -/

namespace Ultrabus

namespace DbusObject

/-! ## What the statements do to an object -/

/-- `sig = ...` -/
def setSig : DbusObject → Bytes → DbusObject
  | .array _ items, sig => .array sig items
  | .struct _ items, sig => .struct sig items
  | .dict key _ items, sig => .dict key sig items
  | object, _ => object

/-- `items.clear ()` -/
def cleared : DbusObject → DbusObject
  | .array sig _ => .array sig []
  | .struct sig _ => .struct sig []
  | .dict key sig _ => .dict key sig []
  | object => object

/-- The elements of `items`, with the keys of a dict. -/
def entries : DbusObject → List (Option Basic × DbusObject)
  | .array _ items | .struct _ items => items.map fun item => (none, item)
  | .dict _ _ items => items.map fun i => (some i.1, i.2)
  | _ => []

/-- `items.emplace_back (...)`, or `items.emplace (...)` with a key that comes behind the others. -/
def emplaceBack : DbusObject → Option Basic × DbusObject → DbusObject
  | .array sig items, (_, item) => .array sig (items ++ [item])
  | .struct sig items, (_, item) => .struct sig (items ++ [item])
  | .dict key sig items, (some k, value) => .dict key sig (items ++ [(k, value)])
  | object, _ => object

/-- The object with the `items` of another one of its class. -/
def withItemsOf : DbusObject → DbusObject → DbusObject
  | .array sig _, .array _ items => .array sig items
  | .struct sig _, .struct _ items => .struct sig items
  | .dict key sig _, .dict _ _ items => .dict key sig items
  | object, _ => object

/-! ## The operators -/

/-- What the move assignment of a container of the standard library does first: it takes the
    content of its operand, or it destroys its own. -/
inductive MoveOrder where
  | takeFirst
  | destroyFirst
deriving DecidableEq, Repr

structure StandardLibrary where
  vector : MoveOrder
  map : MoveOrder

/-- The move assignment of the class of `items`. -/
def StandardLibrary.order (library : StandardLibrary) : DbusObject → MoveOrder
  | .dict _ _ _ => library.map
  | _ => library.vector

inductive Statement where
  -- `sig = rhs.sig;`
  | copySig
  -- `items.clear ();`
  | clearItems
  -- `for (auto& item : rhs.items) ...`
  | cloneItems
  -- `items = std::move (rhs.items);`
  | moveItems
  -- `rhs.sig = DBUS_STRUCT_BEGIN_CHAR_AS_STRING DBUS_STRUCT_END_CHAR_AS_STRING;`
  | resetSig
deriving DecidableEq, Repr

/-- The bodies of the operators behind `this != &rhs`; those of the three classes that copy are
    the same. -/
def assignmentBody (byMove : Bool) (a : DbusObject) : List Statement :=
  if byMove then
    if a.isStruct then [.copySig, .moveItems, .resetSig] else [.copySig, .moveItems]
  else [.copySig, .clearItems, .cloneItems]

/-- The object that is assigned and `rhs`. -/
abbrev Operands := Aliased DbusObject Access

/-- The iterator is dereferenced in every round. -/
def cloneLoop (m : Operands) : List (Option Basic × DbusObject) → Option Operands
  | [] => some m
  | (key, item) :: rest => do
    let _ ← m.read accessors
    cloneLoop (m.update (·.emplaceBack (key, item.refilled))) rest

/-- One statement; none when it reads or writes what does not live any more. -/
def Statement.exec (library : StandardLibrary) (m : Operands) : Statement → Option Operands
  | .copySig => do
    let rhs ← m.read accessors
    return m.update (·.setSig rhs.signature)
  | .clearItems => return m.replace m.target.cleared
  | .cloneItems => do
    let rhs ← m.read accessors
    cloneLoop m rhs.entries
  | .moveItems =>
    match library.order m.target with
    | .takeFirst => do
      let rhs ← m.read accessors
      let m ← m.write accessors rhs.cleared
      return m.replace (m.target.withItemsOf rhs)
    | .destroyFirst => do
      let m := m.replace m.target.cleared
      let rhs ← m.read accessors
      let m ← m.write accessors rhs.cleared
      return m.update (·.withItemsOf rhs)
  | .resetSig => do
    let rhs ← m.read accessors
    m.write accessors (rhs.setSig DbusStruct.empty.sig)

/-- `operator=` of a container and an operand of its class. -/
def operatorAssign (library : StandardLibrary) (byMove : Bool) (m : Operands) : Option Operands :=
  match m.reference with
  -- `this != &rhs`
  | .inside [] => some m
  | _ => (assignmentBody byMove m.target).foldlM (Statement.exec library) m

/-! ## What the statements do -/

@[simp] theorem isStruct_setSig (a : DbusObject) (sig : Bytes) :
    (a.setSig sig).isStruct = a.isStruct := by
  cases a <;> rfl

@[simp] theorem order_setSig (library : StandardLibrary) (a : DbusObject) (sig : Bytes) :
    library.order (a.setSig sig) = library.order a := by
  cases a <;> rfl

/-- The pairs of a container and an operand of its class. -/
@[elab_as_elim] theorem SameContainer.elim {P : ∀ a rhs : DbusObject, a.SameContainer rhs → Prop}
    (array : ∀ sig items sig' items', P (array sig items) (array sig' items') trivial)
    (struct : ∀ sig items sig' items', P (struct sig items) (struct sig' items') trivial)
    (dict : ∀ key sig items sig' items', P (dict key sig items) (dict key sig' items') rfl)
    {a rhs : DbusObject} (hclass : a.SameContainer rhs) : P a rhs hclass := by
  cases a <;> cases rhs <;> try exact False.elim hclass
  case array.array => exact array _ _ _ _
  case struct.struct => exact struct _ _ _ _
  case dict.dict key _ _ key' _ _ =>
    obtain rfl : key' = key := hclass
    exact dict _ _ _ _ _

/-- The loop over the items of any of the classes. -/
theorem foldl_emplaceBack_items {β : Type} (make : List β → DbusObject)
    {entry : β → Option Basic × DbusObject} (clone : β → β)
    (hstep : ∀ done i, (make done).emplaceBack ((entry i).1, (entry i).2.refilled) =
      make (done ++ [clone i])) (items done : List β) :
    (items.map entry).foldl (fun a i => a.emplaceBack (i.1, i.2.refilled)) (make done) =
      make (done ++ items.map clone) := by
  induction items generalizing done with
  | nil => rw [List.map_nil, List.map_nil, List.foldl_nil, List.append_nil]
  | cons i items ih =>
    rw [List.map_cons, List.foldl_cons, hstep, ih, List.map_cons, List.append_assoc,
      List.singleton_append]

section SameContainer

variable {a rhs : DbusObject} (hclass : a.SameContainer rhs)

include hclass

/-- The signature and the items are all there is of a container. -/
theorem setSig_withItemsOf : (a.setSig rhs.signature).withItemsOf rhs = rhs := by
  cases hclass using SameContainer.elim <;> rfl

theorem setSig_cleared_withItemsOf :
    (a.setSig rhs.signature).cleared.withItemsOf rhs = rhs := by
  cases hclass using SameContainer.elim <;> rfl

/-- Of the items it does not matter which there were before. -/
theorem put_withItemsOf (new : DbusObject) {place : List Access} (hplace : place ≠ [])
    (sig : Bytes) :
    (accessors.put new (a.setSig sig) place).withItemsOf rhs = (a.setSig sig).withItemsOf rhs := by
  cases place with
  | nil => exact absurd rfl hplace
  | cons access place =>
    rw [Accessors.put]
    split
    case h_1 => rfl
    case h_2 part hpart =>
      cases hclass using SameContainer.elim <;> cases access <;> rfl

theorem moved_of_sameContainer :
    rhs.moved = if a.isStruct then rhs.cleared.setSig DbusStruct.empty.sig else rhs.cleared := by
  cases hclass using SameContainer.elim <;> rfl

/-- `operator=` takes the value of an operand of the same class. -/
theorem assign_of_sameContainer (byMove : Bool) :
    a.assign rhs byMove = .ok (if byMove then rhs else rhs.refilled) := by
  cases hclass using SameContainer.elim with
  | array | struct => cases byMove <;> rfl
  | dict => cases byMove <;> simp [assign, copyAssign, moveAssign, refilled]

/-- The loop fills a cleared container with the clones of all items. -/
theorem foldl_emplaceBack :
    rhs.entries.foldl (fun a i => a.emplaceBack (i.1, i.2.refilled))
      (a.setSig rhs.signature).cleared = rhs.refilled := by
  cases hclass using SameContainer.elim with
  | array _ _ sig items =>
    rw [refilled, refilledItems_eq_map]
    exact foldl_emplaceBack_items (array sig) refilled (fun done item => rfl) items []
  | struct _ _ sig items =>
    rw [refilled, refilledItems_eq_map]
    exact foldl_emplaceBack_items (struct sig) refilled (fun done item => rfl) items []
  | dict key _ _ sig items =>
    rw [refilled, refilledEntries_eq_map]
    exact foldl_emplaceBack_items (dict key sig) (fun i => (i.1, i.2.refilled))
      (fun done i => rfl) items []

end SameContainer

theorem cloneLoop_outside (a rhs : DbusObject) (items : List (Option Basic × DbusObject)) :
    cloneLoop ⟨a, .outside rhs⟩ items =
      some ⟨items.foldl (fun a i => a.emplaceBack (i.1, i.2.refilled)) a, .outside rhs⟩ := by
  induction items generalizing a with
  | nil => rfl
  | cons i items ih =>
    obtain ⟨key, item⟩ := i
    exact ih (a.emplaceBack (key, item.refilled))

/-- On an operand that is no part of the object the statements do what the operator does, and
    leave a moved operand behind. -/
theorem operatorAssign_outside (library : StandardLibrary) (byMove : Bool) {a rhs : DbusObject}
    (hclass : a.SameContainer rhs) :
    ∃ v, a.assign rhs byMove = .ok v ∧
      operatorAssign library byMove ⟨a, .outside rhs⟩ =
        some ⟨v, .outside (if byMove then rhs.moved else rhs)⟩ := by
  refine ⟨_, assign_of_sameContainer hclass byMove, ?_⟩
  cases byMove with
  | false =>
    simp [operatorAssign, assignmentBody, Statement.exec, cloneLoop_outside,
      foldl_emplaceBack hclass]
  | true =>
    rw [moved_of_sameContainer hclass]
    cases hstruct : a.isStruct <;> cases horder : library.order a <;>
      simp [operatorAssign, assignmentBody, Statement.exec, hstruct, horder,
        setSig_withItemsOf hclass, setSig_cleared_withItemsOf hclass]

/-! ## A part as operand -/

/-- The assignment of a part is done without a look at what is gone, and leaves the signature and
    the content of the part. -/
def TakesPart (library : StandardLibrary) (byMove : Bool) (a : DbusObject) (place : List Access)
    (s : DbusObject) : Prop :=
  ∃ m, operatorAssign library byMove ⟨a, .inside place⟩ = some m ∧ m.target.view = s.view

section Inside

variable {a s : DbusObject} {place : List Access}

/-- The signature of an object is not one of its parts. -/
theorem at?_setSig (hplace : place ≠ []) (sig : Bytes) :
    accessors.at? (a.setSig sig) place = accessors.at? a place := by
  cases place with
  | nil => exact absurd rfl hplace
  | cons access place =>
    have hget : (a.setSig sig).get? access = a.get? access := by
      cases a <;> cases access <;> rfl
    simp only [Accessors.at?, accessors_get, hget]

variable (hplace : place ≠ []) (hs : accessors.at? a place = some s)
include hplace hs

/-- Only the object itself is recognised, and then the first statement reads the part. -/
theorem operatorAssign_inside (library : StandardLibrary) (byMove : Bool) :
    operatorAssign library byMove ⟨a, .inside place⟩ =
      ((assignmentBody byMove a).tail).foldlM (Statement.exec library)
        ⟨a.setSig s.signature, .inside place⟩ := by
  have hbody : assignmentBody byMove a = .copySig :: (assignmentBody byMove a).tail := by
    unfold assignmentBody
    split
    · split <;> rfl
    · rfl
  cases place with
  | nil => exact absurd rfl hplace
  | cons access place =>
    rw [operatorAssign, hbody]
    simp [Statement.exec, hs]

/-- The loop reads an operand that has been cleared away. -/
theorem copy_inside (library : StandardLibrary) :
    operatorAssign library false ⟨a, .inside place⟩ = none := by
  rw [operatorAssign_inside hplace hs]
  simp [assignmentBody, Statement.exec]

/-- `items = std::move (rhs.items)` may do without the operand, but not what comes behind it. -/
theorem move_inside (hclass : a.SameContainer s) (library : StandardLibrary) :
    operatorAssign library true ⟨a, .inside place⟩ =
      if a.isStruct = false ∧ library.order a = .takeFirst then some ⟨s, .dangling⟩ else none := by
  rw [operatorAssign_inside hplace hs]
  have hread : accessors.at? (a.setSig s.signature) place = some s :=
    (at?_setSig hplace _).trans hs
  cases hstruct : a.isStruct <;> cases horder : library.order a <;>
    simp [assignmentBody, Statement.exec, hstruct, horder, hread, put_withItemsOf hclass _ hplace,
      setSig_withItemsOf hclass]

end Inside

/-- A container can be assigned a part of itself exactly by the move operators of `dbus_array` and
    `dbus_dict`, and then only if the standard library takes the content of the part before it
    destroys the old content. -/
theorem takesPart_iff (library : StandardLibrary) (byMove : Bool) {a s : DbusObject}
    {place : List Access} (hplace : place ≠ []) (hs : accessors.at? a place = some s)
    (hclass : a.SameContainer s) :
    TakesPart library byMove a place s ↔
      byMove = true ∧ a.isStruct = false ∧ library.order a = .takeFirst := by
  cases byMove with
  | false =>
    refine iff_of_false ?_ fun h => absurd h.1 Bool.false_ne_true
    rintro ⟨m, hrun, -⟩
    cases (copy_inside hplace hs library).symm.trans hrun
  | true =>
    rw [TakesPart, move_inside hplace hs hclass library]
    constructor
    · rintro ⟨m, hrun, -⟩
      exact ⟨rfl, (Option.ite_none_right_eq_some.mp hrun).1⟩
    · rintro ⟨-, htakes⟩
      exact ⟨_, if_pos htakes, rfl⟩

/-- An array of arrays with two numbers in the second one. -/
def nestedArray : DbusObject :=
  .array (text "aai") [.array (text "ai") [],
    .array (text "ai") [.basic (.int32 1), .basic (.int32 2)]]

/-- `a = std::move (a[1])`, where a vector takes the content of its operand first. -/
theorem nestedArray_takesPart :
    TakesPart ⟨.takeFirst, .destroyFirst⟩ true nestedArray [.element 1]
      (.array (text "ai") [.basic (.int32 1), .basic (.int32 2)]) := by
  refine (takesPart_iff _ true (List.cons_ne_nil _ _) rfl ?_).mpr ⟨rfl, rfl, rfl⟩
  exact trivial

/-- `a = a[1]` reads the second array after it is gone, whatever the library does. -/
theorem nestedArray_not_takesPart :
    ¬ TakesPart ⟨.takeFirst, .takeFirst⟩ false nestedArray [.element 1]
      (.array (text "ai") [.basic (.int32 1), .basic (.int32 2)]) := by
  rintro ⟨m, hrun, -⟩
  cases (copy_inside (List.cons_ne_nil _ _) rfl _).symm.trans hrun

end DbusObject

end Ultrabus
