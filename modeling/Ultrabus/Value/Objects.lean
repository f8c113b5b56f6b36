import Ultrabus.Lib.Places
import Ultrabus.Value.Assignment
import Ultrabus.Value.DictOperations

/-! # Objects of the value classes

The objects that a program holds, variants with a null pointer included, and the parts of
them that it can refer to: elements of arrays, attributes of structs, values of dicts and what
`get` of a variant returns.  Values are assigned through such references, moved out of them,
and become the content of variants. -/

namespace Ultrabus

/-- An object of a class derived from `dbus_type`. -/
inductive DbusObject where
  | basic (value : Basic)
  | array (sig : Bytes) (items : List DbusObject)
  | struct (sig : Bytes) (items : List DbusObject)
  | dict (key : BasicType) (sig : Bytes) (items : List (Basic × DbusObject))
  | variant (value : DbusObject)
  -- a variant whose pointer is null
  | emptyVariant
deriving Repr

namespace DbusObject

def signature : DbusObject → Bytes
  | .basic value => [value.type.code]
  | .array sig _ => sig
  | .struct sig _ => sig
  | .dict _ sig _ => sig
  | .variant _ | .emptyVariant => [dbusTypeVariant]

def isVariant : DbusObject → Bool
  | .variant _ | .emptyVariant => true
  | _ => false

def isStruct : DbusObject → Bool
  | .struct _ _ => true
  | _ => false

/-- `new dbus_i32`, which `get` puts where there is a null pointer. -/
def newI32 : DbusObject := .basic BasicType.int32.default

/-! ## Objects and values -/

mutual
/-- The value of an object, as `get` of every variant in it shows it. -/
def view : DbusObject → DbusType
  | .basic value => .basic value
  | .array sig items => .array sig (viewItems items)
  | .struct sig items => .struct sig (viewItems items)
  | .dict key sig items => .dict key sig (viewEntries items)
  | .variant value => .variant value.view
  | .emptyVariant => DbusVariant.default

def viewItems : List DbusObject → List DbusType
  | [] => []
  | item :: items => item.view :: viewItems items

def viewEntries : List (Basic × DbusObject) → List (Basic × DbusType)
  | [] => []
  | (key, value) :: items => (key, value.view) :: viewEntries items
end

mutual
/-- The object with a value. -/
def ofValue : DbusType → DbusObject
  | .basic value => .basic value
  | .array sig items => .array sig (ofItems items)
  | .struct sig items => .struct sig (ofItems items)
  | .dict key sig items => .dict key sig (ofEntries items)
  | .variant value => .variant (ofValue value)

def ofItems : List DbusType → List DbusObject
  | [] => []
  | item :: items => ofValue item :: ofItems items

def ofEntries : List (Basic × DbusType) → List (Basic × DbusObject)
  | [] => []
  | (key, value) :: items => (key, ofValue value) :: ofEntries items
end

mutual
/-- The object after `get` of every variant in it.  `clone` makes such an object, and
    leaves such an object behind, since a copy of a variant is made of what `get` returns. -/
def refilled : DbusObject → DbusObject
  | .basic value => .basic value
  | .array sig items => .array sig (refilledItems items)
  | .struct sig items => .struct sig (refilledItems items)
  | .dict key sig items => .dict key sig (refilledEntries items)
  | .variant value => .variant value.refilled
  | .emptyVariant => .variant newI32

def refilledItems : List DbusObject → List DbusObject
  | [] => []
  | item :: items => item.refilled :: refilledItems items

def refilledEntries : List (Basic × DbusObject) → List (Basic × DbusObject)
  | [] => []
  | (key, value) :: items => (key, value.refilled) :: refilledEntries items
end

/-! ## Parts of objects -/

/-- How a program gets from an object to a part of it. -/
inductive Access where
  -- `at`, `operator[]`, `front`, `back` and the iterators
  | element (n : Nat)
  | attribute (n : Nat)
  -- the value that an iterator or `operator[]` of a dict gives
  | value (n : Nat)
  -- `get` of a variant
  | content
deriving DecidableEq, Repr

def get? : DbusObject → Access → Option DbusObject
  | .array _ items, .element n => items[n]?
  | .struct _ items, .attribute n => items[n]?
  | .dict _ _ items, .value n => (items[n]?).map Prod.snd
  | .variant value, .content => some value
  | .emptyVariant, .content => some newI32
  | _, _ => none

def set : DbusObject → Access → DbusObject → DbusObject
  | .array sig items, .element n, new => .array sig (items.set n new)
  | .struct sig items, .attribute n, new => .struct sig (items.set n new)
  | .dict key sig items, .value n, new => .dict key sig (items.modify n fun i => (i.1, new))
  | .variant _, .content, new => .variant new
  | .emptyVariant, .content, new => .variant new
  | object, _, _ => object

theorem get?_set_self (object : DbusObject) (a : Access) (part new : DbusObject)
    (h : object.get? a = some part) : (object.set a new).get? a = some new := by
  cases object <;> cases a <;> simp only [get?, set, reduceCtorEq] at h ⊢
  case array.element sig items n =>
    obtain ⟨hlt, -⟩ := List.getElem?_eq_some_iff.mp h
    simp [hlt]
  case struct.attribute sig items n =>
    obtain ⟨hlt, -⟩ := List.getElem?_eq_some_iff.mp h
    simp [hlt]
  case dict.value key sig items n =>
    obtain ⟨item, hitem, -⟩ := Option.map_eq_some_iff.mp h
    simp [hitem]

theorem get?_set_ne (object : DbusObject) (a b : Access) (new : DbusObject) (h : a ≠ b) :
    (object.set a new).get? b = object.get? b := by
  cases object <;> cases a <;> cases b <;>
    simp only [get?, set, ne_eq, Access.element.injEq, Access.attribute.injEq,
      Access.value.injEq, not_true_eq_false] at h ⊢
  case array.element.element sig items n m => simp [h]
  case struct.attribute.attribute sig items n m => simp [h]
  case dict.value.value key sig items n m => simp [h]

def accessors : Accessors DbusObject Access where
  get := get?
  set := set
  get_set_self := get?_set_self
  get_set_ne := get?_set_ne

@[simp] theorem accessors_get (object : DbusObject) (a : Access) :
    accessors.get object a = object.get? a := rfl
@[simp] theorem accessors_set (object : DbusObject) (a : Access) (new : DbusObject) :
    accessors.set object a new = object.set a new := rfl

theorem signature_set (object : DbusObject) (a : Access) (new : DbusObject) :
    (object.set a new).signature = object.signature := by
  cases object <;> cases a <;> rfl

theorem isVariant_set (object : DbusObject) (a : Access) (new : DbusObject) :
    (object.set a new).isVariant = object.isVariant := by
  cases object <;> cases a <;> rfl

theorem forall_mem_set {items : List DbusObject} {n : Nat} {new : DbusObject}
    {P : DbusObject → Prop} (hnew : P new) (hold : ∀ item ∈ items, P item) :
    ∀ item ∈ items.set n new, P item := by
  intro item hitem
  obtain hmem | rfl := List.mem_or_eq_of_mem_set hitem
  · exact hold item hmem
  · exact hnew

theorem forall_mem_modify {items : List (Basic × DbusObject)} {n : Nat} {new : DbusObject}
    {P : DbusObject → Prop} (hnew : P new) (hold : ∀ i ∈ items, P i.2) :
    ∀ i ∈ items.modify n fun i => (i.1, new), P i.2 := by
  intro i hi
  obtain ⟨m, hm⟩ := List.mem_iff_getElem?.mp hi
  rw [List.getElem?_modify] at hm
  split at hm
  case isTrue =>
    obtain ⟨old, -, rfl⟩ := Option.map_eq_some_iff.mp hm
    exact hnew
  case isFalse =>
    have hmem : items[m]? = some i := by simpa using hm
    exact hold i (List.mem_of_getElem? hmem)

/-! ## Assignment -/

/-- What is left of an object that has been moved from; standard strings are empty then. -/
def moved : DbusObject → DbusObject
  | .basic (.string _) => .basic (.string [])
  | .basic (.objectPath _) => .basic (.objectPath (text "/"))
  | .basic (.signature _) => .basic (.signature [])
  | .basic value => .basic value
  | .array sig _ => .array sig []
  | .struct _ _ => .struct DbusStruct.empty.sig []
  | .dict key sig _ => .dict key sig []
  | .variant _ | .emptyVariant => .emptyVariant

/-- `dbus_variant` of an object: a variant is not nested in another. -/
def wrapped : DbusObject → DbusObject
  | .variant value => .variant value
  | .emptyVariant => .emptyVariant
  | object => .variant object

def cannotAssign (className : Bytes) : Exception :=
  .invalidArgument (text "Can't assign a dbus_type with different signature to a " ++ className)

/-- `operator= (const dbus_type&)` of the basic classes.  The two operators of `dbus_basic` do
    the same. -/
def copyBasic (target : Basic) (rhs : DbusType) : Except Exception Basic :=
  match target.type.ownAssignment? with
  | some className =>
    match rhs with
    | .basic value =>
      if value.type = target.type then .ok value else .error (cannotAssign className)
    | _ => .error (cannotAssign className)
  | none => target.moveAssign rhs

/-- `operator= (const dbus_type&)`. -/
def copyAssign (target rhs : DbusObject) : Except Exception DbusObject :=
  match target with
  | .basic target => (copyBasic target rhs.view).map .basic
  | .array _ _ =>
    match rhs with
    | .array sig items => .ok (.array sig (refilledItems items))
    | _ => .error (cannotAssign (text "dbus_array"))
  | .struct _ _ =>
    match rhs with
    | .struct sig items => .ok (.struct sig (refilledItems items))
    | _ => .error (cannotAssign (text "dbus_struct"))
  | .dict key _ _ =>
    match rhs with
    | .dict key' sig items =>
      if key' = key then .ok (.dict key sig (refilledEntries items)) else .error .badCast
    | _ => .error (cannotAssign (text "dbus_dict"))
  | .variant _ | .emptyVariant => .ok rhs.refilled.wrapped

/-- `operator= (dbus_type&&)`. -/
def moveAssign (target rhs : DbusObject) : Except Exception DbusObject :=
  match target with
  | .basic target => (target.moveAssign rhs.view).map .basic
  | .array _ _ =>
    match rhs with
    | .array sig items => .ok (.array sig items)
    | _ => .error (cannotMove (text "dbus_array"))
  | .struct _ _ =>
    match rhs with
    | .struct sig items => .ok (.struct sig items)
    | _ => .error (cannotMove (text "dbus_struct"))
  | .dict key _ _ =>
    match rhs with
    | .dict key' sig items => if key' = key then .ok (.dict key sig items) else .error .badCast
    | _ => .error (cannotMove (text "dbus_dict"))
  | .variant _ | .emptyVariant => .ok rhs.wrapped

def assign (target rhs : DbusObject) (byMove : Bool) : Except Exception DbusObject :=
  if byMove then target.moveAssign rhs else target.copyAssign rhs

/-! ## What an assignment leaves -/

/-- The two are objects of one class other than a basic one or `dbus_variant`. -/
def SameContainer : DbusObject → DbusObject → Prop
  | .array _ _, .array _ _ => True
  | .struct _ _, .struct _ _ => True
  | .dict key _ _, .dict key' _ _ => key' = key
  | _, _ => False

instance (target rhs : DbusObject) : Decidable (target.SameContainer rhs) := by
  cases target <;> cases rhs <;>
    first
    | exact isTrue trivial
    | exact isFalse id
    | exact inferInstanceAs (Decidable (_ = _))

theorem SameContainer.isVariant_eq {target rhs : DbusObject} (h : target.SameContainer rhs) :
    rhs.isVariant = target.isVariant := by
  cases target <;> cases rhs <;> first | rfl | exact h.elim

theorem type_convert {type : BasicType} (h : type.ownAssignment? = none) (value : Basic) :
    (type.convert value).type = type := by
  cases type with
  | string | objectPath | signature | unixFd => cases h
  | boolean | double =>
    simp only [BasicType.convert]
    split <;> rfl
  | _ => rfl

theorem moveBasic_type {target value : Basic} {rhs : DbusType}
    (h : target.moveAssign rhs = .ok value) : value.type = target.type := by
  simp only [Basic.moveAssign] at h
  split at h
  case h_1 className value' hown =>
    split at h
    case isTrue htype =>
      cases h
      exact htype
    case isFalse => cases h
  case h_3 value' hown =>
    split at h <;> cases h
    exact type_convert hown value'
  all_goals cases h

theorem copyBasic_type {target value : Basic} {rhs : DbusType}
    (h : copyBasic target rhs = .ok value) : value.type = target.type := by
  simp only [copyBasic] at h
  split at h
  case h_1 className hown =>
    split at h
    case h_1 value' =>
      split at h
      case isTrue htype =>
        cases h
        exact htype
      case isFalse => cases h
    case h_2 => cases h
  case h_2 => exact moveBasic_type h

theorem map_basic_eq_ok {result : Except Exception Basic} {v : DbusObject}
    (h : result.map .basic = .ok v) : ∃ new, result = .ok new ∧ v = .basic new := by
  cases result with
  | error e => cases h
  | ok new =>
    cases h
    exact ⟨new, rfl, rfl⟩

/-- `operator=` of a container takes the operand over, and that of a variant wraps it. -/
theorem moveAssign_cases {target rhs v : DbusObject} (h : target.moveAssign rhs = .ok v) :
    (∃ old new : Basic, target = .basic old ∧ v = .basic new ∧ new.type = old.type) ∨
      (target.SameContainer rhs ∧ v = rhs) ∨ (target.isVariant = true ∧ v = rhs.wrapped) := by
  cases target with
  | basic old =>
    obtain ⟨new, hnew, rfl⟩ := map_basic_eq_ok h
    exact .inl ⟨old, new, rfl, rfl, moveBasic_type hnew⟩
  | array sig items | struct sig items =>
    simp only [moveAssign] at h
    split at h <;> cases h
    exact .inr (.inl ⟨trivial, rfl⟩)
  | dict key sig items =>
    simp only [moveAssign] at h
    split at h
    case h_1 key' sig' items' =>
      split at h <;> cases h
      case isTrue hkey =>
        subst hkey
        exact .inr (.inl ⟨rfl, rfl⟩)
    case h_2 => cases h
  | variant value | emptyVariant =>
    cases h
    exact .inr (.inr ⟨rfl, rfl⟩)

theorem copyAssign_cases {target rhs v : DbusObject} (h : target.copyAssign rhs = .ok v) :
    (∃ old new : Basic, target = .basic old ∧ v = .basic new ∧ new.type = old.type) ∨
      (target.SameContainer rhs ∧ v = rhs.refilled) ∨
      (target.isVariant = true ∧ v = rhs.refilled.wrapped) := by
  cases target with
  | basic old =>
    obtain ⟨new, hnew, rfl⟩ := map_basic_eq_ok h
    exact .inl ⟨old, new, rfl, rfl, copyBasic_type hnew⟩
  | array sig items | struct sig items =>
    simp only [copyAssign] at h
    split at h <;> cases h
    exact .inr (.inl ⟨trivial, rfl⟩)
  | dict key sig items =>
    simp only [copyAssign] at h
    split at h
    case h_1 key' sig' items' =>
      split at h <;> cases h
      case isTrue hkey =>
        subst hkey
        exact .inr (.inl ⟨rfl, rfl⟩)
    case h_2 => cases h
  | variant value | emptyVariant =>
    cases h
    exact .inr (.inr ⟨rfl, rfl⟩)

/-- Structs are moved into structs and into variants. -/
theorem isStruct_of_moveAssign {target rhs v : DbusObject} (h : target.moveAssign rhs = .ok v)
    (hstruct : rhs.isStruct = true) : target.isStruct = true ∨ target.isVariant = true := by
  cases rhs with
  | struct sig items =>
    cases target with
    | basic target =>
      obtain ⟨new, hnew, -⟩ := map_basic_eq_ok h
      simp only [view, Basic.moveAssign] at hnew
      split at hnew <;> first | cases hnew | contradiction
    | struct _ _ => exact .inl rfl
    | variant _ | emptyVariant => exact .inr rfl
    | array _ _ | dict _ _ _ => cases h
  | _ => cases hstruct

@[simp] theorem signature_refilled (object : DbusObject) :
    object.refilled.signature = object.signature := by
  cases object <;> rfl

@[simp] theorem isVariant_refilled (object : DbusObject) :
    object.refilled.isVariant = object.isVariant := by
  cases object <;> rfl

@[simp] theorem isVariant_moved (object : DbusObject) :
    object.moved.isVariant = object.isVariant := by
  cases object with
  | basic value => cases value <;> rfl
  | _ => rfl

@[simp] theorem signature_wrapped (object : DbusObject) :
    object.wrapped.signature = [dbusTypeVariant] := by
  cases object <;> rfl

@[simp] theorem isVariant_wrapped (object : DbusObject) : object.wrapped.isVariant = true := by
  cases object <;> rfl

theorem signature_moved {object : DbusObject} (h : object.isStruct = false) :
    object.moved.signature = object.signature := by
  cases object with
  | basic value => cases value <;> rfl
  | struct sig items => cases h
  | _ => rfl

theorem signature_of_isVariant {object : DbusObject} (h : object.isVariant = true) :
    object.signature = [dbusTypeVariant] := by
  cases object <;> first | rfl | cases h

/-! ## Objects and the values that they show -/

mutual
@[simp] theorem view_refilled (object : DbusObject) : object.refilled.view = object.view := by
  cases object with
  | array sig items | struct sig items => simp only [refilled, view, viewItems_refilled items]
  | dict key sig items => simp only [refilled, view, viewEntries_refilled items]
  | variant value => simp only [refilled, view, view_refilled value]
  | basic value | emptyVariant => rfl

theorem viewItems_refilled (items : List DbusObject) :
    viewItems (refilledItems items) = viewItems items := by
  cases items with
  | nil => rfl
  | cons item items => simp only [refilledItems, viewItems, view_refilled, viewItems_refilled]

theorem viewEntries_refilled (items : List (Basic × DbusObject)) :
    viewEntries (refilledEntries items) = viewEntries items := by
  cases items with
  | nil => rfl
  | cons item items => simp only [refilledEntries, viewEntries, view_refilled, viewEntries_refilled]
end

theorem view_wrapped (object : DbusObject) :
    object.wrapped.view = DbusVariant.ofPointer (some object.view) := by
  cases object <;> rfl

/-- Assignment of objects is assignment of the values that they show. -/
theorem view_moveAssign (target rhs : DbusObject) :
    (target.moveAssign rhs).map view = target.view.moveAssign rhs.view := by
  cases target with
  | basic target =>
    show ((target.moveAssign rhs.view).map basic).map view = (target.moveAssign rhs.view).map .basic
    cases target.moveAssign rhs.view <;> rfl
  | array sig items | struct sig items => cases rhs <;> rfl
  | dict key sig items =>
    cases rhs with
    | dict key' sig' items' =>
      simp only [moveAssign, view, DbusType.moveAssign]
      split <;> rfl
    | _ => rfl
  | variant value | emptyVariant => exact congrArg Except.ok (view_wrapped rhs)

/-! ## Lists of parts -/

theorem refilledItems_eq_map (items : List DbusObject) :
    refilledItems items = items.map refilled := by
  induction items with
  | nil => rfl
  | cons item items ih => rw [refilledItems, ih, List.map_cons]

theorem refilledEntries_eq_map (items : List (Basic × DbusObject)) :
    refilledEntries items = items.map fun i => (i.1, i.2.refilled) := by
  induction items with
  | nil => rfl
  | cons item items ih => rw [refilledEntries, ih, List.map_cons]

theorem ofItems_eq_map (items : List DbusType) : ofItems items = items.map ofValue := by
  induction items with
  | nil => rfl
  | cons item items ih => rw [ofItems, ih, List.map_cons]

theorem ofEntries_eq_map (items : List (Basic × DbusType)) :
    ofEntries items = items.map fun i => (i.1, ofValue i.2) := by
  induction items with
  | nil => rfl
  | cons item items ih => rw [ofEntries, ih, List.map_cons]

@[simp] theorem signature_ofValue (v : DbusType) : (ofValue v).signature = v.signature := by
  cases v <;> rfl

@[simp] theorem isVariant_ofValue (v : DbusType) : (ofValue v).isVariant = v.isVariant := by
  cases v <;> rfl

end DbusObject

/-! ## What the factory makes -/

/-- A value that `create_dbus_type` makes of some text. -/
inductive DbusType.Made : DbusType → Prop where
  | basic (type : BasicType) : Made (.basic type.default)
  | array (element : Bytes) : Made (.array (dbusTypeArray :: element) [])
  | struct (sig : Bytes) {items : List DbusType} : (∀ item ∈ items, Made item) →
      Made (.struct sig items)
  | dict (key : BasicType) {value : Bytes} : (0 : UInt8) ∉ value →
      Made (.dict key (dictSignature key value) [])
  | variant : Made DbusVariant.default

theorem createDbusDict_eq_ok {dbusTypeCode : UInt8} {valueSignature : Bytes} {v : DbusType}
    (h : createDbusDict dbusTypeCode valueSignature = .ok (some v)) :
    ∃ key, v = .dict key (dictSignature key valueSignature) [] := by
  simp only [createDbusDict] at h
  split at h
  case isTrue => cases h
  case isFalse =>
    split at h
    case h_1 key hkey =>
      simp only [DbusDict.ofValueSignatureText] at h
      split at h <;> cases h
      exact ⟨key, rfl⟩
    case h_2 => cases h

theorem DbusArray.ofElementSignature_eq_ok {element : Bytes} {array : DbusArray}
    (h : DbusArray.ofElementSignature element = .ok array) :
    array = ⟨dbusTypeArray :: element, []⟩ := by
  simp only [DbusArray.ofElementSignature] at h
  split at h <;> cases h
  rfl

/-- The one complete type that starts as that of variants. -/
theorem cStr_eq_variant {sig : Bytes} (hvalid : dbusSignatureValidateSingle (cStr sig) = true)
    (hhead : sig.headD 0 = dbusTypeVariant) : cStr sig = [dbusTypeVariant] := by
  obtain ⟨t, ht, -⟩ := (validateSingle_iff _).mp hvalid
  have hcStr : (cStr sig).headD 0 = dbusTypeVariant := by
    cases sig with
    | nil => cases hhead
    | cons c rest =>
      obtain rfl : c = dbusTypeVariant := hhead
      rfl
  rw [ht] at hcStr
  rw [ht, SigType.eq_variant_of_headD hcStr]
  rfl

/-- What `create_dbus_type` makes, for whatever text. -/
theorem createDbusType_cases {fuel : Nat} {sig : Bytes} {v : DbusType}
    (h : createDbusType (fuel + 1) sig = .ok (some v)) :
    (∃ key value, (0 : UInt8) ∉ value ∧ v = .dict key (dictSignature key value) []) ∨
      (∃ element, v = .array (dbusTypeArray :: element) []) ∨
      (∃ attributeSignatures s, DbusStruct.ofAttributeSignatures fuel attributeSignatures = .ok s ∧
        v = .struct s.sig s.items) ∨
      (cStr sig = [dbusTypeVariant] ∧ v = DbusVariant.default) ∨
      ∃ type : BasicType, v = .basic type.default := by
  simp only [createDbusType] at h
  split at h
  case isTrue => cases h
  case isFalse hvalid =>
    split at h
    case isTrue =>
      split at h
      case isTrue =>
        obtain ⟨key, rfl⟩ := createDbusDict_eq_ok (Exec.ofExcept_eq_ok_iff.mp h)
        exact .inl ⟨key, _, nul_notMem_cStr, rfl⟩
      case isFalse =>
        obtain ⟨array, harray, heq⟩ := Exec.bind_eq_ok_iff.mp h
        obtain rfl := DbusArray.ofElementSignature_eq_ok (Exec.ofExcept_eq_ok_iff.mp harray)
        cases heq
        exact .inr (.inl ⟨_, rfl⟩)
    case isFalse =>
      split at h
      case isTrue =>
        obtain ⟨s, hs, heq⟩ := Exec.bind_eq_ok_iff.mp h
        cases heq
        exact .inr (.inr (.inl ⟨_, s, hs, rfl⟩))
      case isFalse =>
        split at h
        case isTrue hcode =>
          simp only [Bool.or_eq_true, Bool.not_eq_true', not_or, Bool.not_eq_false] at hvalid
          cases h
          exact .inr (.inr (.inr (.inl ⟨cStr_eq_variant hvalid.2 hcode, rfl⟩)))
        case isFalse =>
          obtain ⟨type, -, rfl⟩ := Option.map_eq_some_iff.mp (Exec.ok.inj h)
          exact .inr (.inr (.inr (.inr ⟨type, rfl⟩)))

theorem cStr_of_isVariant {fuel : Nat} {sig : Bytes} {v : DbusType}
    (h : createDbusType fuel sig = .ok (some v)) (hvariant : v.isVariant = true) :
    cStr sig = [dbusTypeVariant] := by
  cases fuel with
  | zero => cases h
  | succ fuel =>
    obtain ⟨key, value, -, rfl⟩ | ⟨element, rfl⟩ | ⟨_, s, -, rfl⟩ | ⟨hsig, -⟩ | ⟨type, rfl⟩ :=
      createDbusType_cases h
    case inr.inr.inr.inl => exact hsig
    all_goals cases hvariant

mutual
theorem made_createDbusType {fuel : Nat} {sig : Bytes} {v : DbusType}
    (h : createDbusType fuel sig = .ok (some v)) : v.Made := by
  cases fuel with
  | zero => cases h
  | succ fuel =>
    obtain ⟨key, value, hnul, rfl⟩ | ⟨element, rfl⟩ | ⟨_, s, hs, rfl⟩ | ⟨-, rfl⟩ | ⟨type, rfl⟩ :=
      createDbusType_cases h
    · exact .dict key hnul
    · exact .array element
    · exact .struct s.sig (made_ofAttributeSignatures hs)
    · exact .variant
    · exact .basic type
termination_by fuel

theorem made_ofAttributeSignatures {fuel : Nat} {attributeSignatures : Bytes} {s : DbusStruct}
    (h : DbusStruct.ofAttributeSignatures fuel attributeSignatures = .ok s) :
    ∀ item ∈ s.items, item.Made := by
  cases fuel with
  | zero => cases h
  | succ fuel =>
    simp only [DbusStruct.ofAttributeSignatures] at h
    split at h
    case isTrue => cases h
    case isFalse =>
      obtain ⟨items, hitems, heq⟩ := Exec.bind_eq_ok_iff.mp h
      cases heq
      exact made_attribLoop (fun item hitem => absurd hitem List.not_mem_nil) hitems
termination_by fuel

theorem made_attribLoop {fuel : Nat} {items made : List DbusType} {attribIter : SignatureIter}
    (hitems : ∀ item ∈ items, item.Made) (h : attribLoop fuel items attribIter = .ok made) :
    ∀ item ∈ made, item.Made := by
  cases fuel with
  | zero => cases h
  | succ fuel =>
    simp only [attribLoop] at h
    obtain ⟨ptr, hptr, hrest⟩ := Exec.bind_eq_ok_iff.mp h
    split at hrest
    case h_1 => cases hrest
    case h_2 item =>
      have happend : ∀ i ∈ items ++ [item], i.Made :=
        List.forall_mem_append.mpr
          ⟨hitems, List.forall_mem_singleton.mpr (made_createDbusType hptr)⟩
      split at hrest
      case h_1 =>
        cases hrest
        exact happend
      case h_2 => exact made_attribLoop happend hrest
termination_by fuel
end

end Ultrabus
