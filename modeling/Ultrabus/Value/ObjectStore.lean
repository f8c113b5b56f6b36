import Mathlib.Logic.Function.Basic
import Ultrabus.Lib.Transition
import Ultrabus.Value.Objects

/-! # A program with D-Bus objects

`ObjectStore.system` runs any sequence of assignments through references, of constructions and
assignments of variants, and of moves out of objects and of parts of them, on any number of
objects.  An exception leaves everything as it was.

There is no step where the behaviour is undefined, and none that leaves an object that owns
itself: a container other than a variant is not assigned a part of itself or what it is a
part of. -/

namespace Ultrabus

namespace ObjectStore

/-- The objects that the program holds itself. -/
abbrev State (ι : Type) := ι → Option DbusObject

/-- An object or a part of one. -/
structure Place (ι : Type) where
  object : ι
  path : List DbusObject.Access
deriving DecidableEq, Repr

inductive Label (ι : Type) where
  -- `operator=` of whatever class the object at `target` is of
  | assign (target operand : Place ι) (byMove : Bool)
  -- `operator[]` of a dict
  | subscript (dict : Place ι) (key : Basic)
  | get (variant : Place ι)
  -- `clone` and `clone_move`, or the copy and the move constructor
  | clone (object : ι) (other : Place ι) (byMove : Bool)
  -- the constructors of `dbus_variant`
  | newVariant (object : ι)
  | newVariantOfPointer (object : ι) (pointerToValue : Option ι)
  | newVariantOfSignature (object : ι) (valueSignature : TextArg)
  | newVariantOfTypeCode (object : ι) (typeCode : Int)
  | newVariantOf (object : ι) (other : Place ι) (byMove : Bool)
  -- `operator=` of `dbus_variant` with a C++ value
  | assignCpp (variant : Place ι) (rhs : CppValue)
  | assignText (variant : Place ι) (rhs : TextArg)

variable {ι : Type} [DecidableEq ι]

def State.at? (s : State ι) (p : Place ι) : Option DbusObject :=
  (s p.object).bind fun object => DbusObject.accessors.at? object p.path

def State.create (s : State ι) (object : ι) (v : DbusObject) : State ι :=
  Function.update s object (some v)

/-- What `f` makes of the object at a place. -/
def State.modify (s : State ι) (p : Place ι) (f : DbusObject → DbusObject) : State ι :=
  match s p.object with
  | none => s
  | some object =>
    match DbusObject.accessors.at? object p.path with
    | none => s
    | some part => s.create p.object (DbusObject.accessors.put (f part) object p.path)

/-- Neither of the two is a part of the other. -/
def Place.Apart (p q : Place ι) : Prop := p.object = q.object → Accessors.Apart p.path q.path

instance (p q : Place ι) : Decidable (p.Apart q) :=
  inferInstanceAs (Decidable (p.object = q.object → Accessors.Apart p.path q.path))

/-- `q` is `p` or a part of it. -/
def Place.Has (p q : Place ι) : Prop := p.object = q.object ∧ p.path <+: q.path

instance (p q : Place ι) : Decidable (p.Has q) :=
  inferInstanceAs (Decidable (p.object = q.object ∧ p.path <+: q.path))

/-! ## Steps -/

/-- `operator= (const dbus_type&)` and `operator= (dbus_type&&)` on two objects. -/
def assignStep (s : State ι) (target operand : Place ι) (byMove : Bool)
    (targetObject operandObject : DbusObject) : Option (State ι) :=
  -- `this != &rhs`
  if target = operand then some s
  else if byMove then
    match targetObject.moveAssign operandObject with
    | .error _ => some s
    | .ok v =>
      if target.Apart operand then
        some ((s.modify target fun _ => v).modify operand DbusObject.moved)
      -- What was in the variant goes with its old content.
      else if targetObject.isVariant ∧ target.Has operand then some (s.modify target fun _ => v)
      else none
  else
    match targetObject.copyAssign operandObject with
    | .error _ => some s
    | .ok v =>
      if target.Apart operand ∨ targetObject.isVariant then
        some ((s.modify target fun _ => v).modify operand DbusObject.refilled)
      else none

/-- `create_dbus_type (const std::string&)`. -/
def create? (sig : Bytes) : Option DbusObject :=
  match createDbusType (DictObject.creationFuel sig) sig with
  | .ok (some v) => some (.ofValue v)
  | _ => none

/-- The signature that a constructor passes on; `std::string` cannot be made of a null
    pointer. -/
def signatureOf? : TextArg → Option Bytes
  | .cString text => text.map cStr
  | .string text => some text

/-- `dbus_type_is_valid`: structs and dict entries have codes of their own. -/
def dbusTypeIsValid (typeCode : Int) : Bool :=
  match charOfInt? typeCode with
  | some c =>
    (BasicType.ofCode? c).isSome ||
      [dbusTypeArray, dbusTypeVariant, 'r'.toUInt8, 'e'.toUInt8].contains c
  | none => false

def subscriptStep (s : State ι) (dict : Place ι) (key : Basic) : DbusObject → Option (State ι)
  | .dict keyType sig items =>
    if key.type ≠ keyType then none
    else
      match OrderedMap.lookup Basic.less key items with
      | some _ => some s
      | none =>
        (create? (DictObject.valueSignature ⟨keyType, sig, []⟩)).map fun value =>
          s.modify dict fun _ => .dict keyType sig (OrderedMap.assign Basic.less key value items)
  | _ => none

/-- The constructors that make a default value: they throw when they cannot. -/
def State.createVariant (s : State ι) (object : ι) (value : Option DbusObject) : State ι :=
  match value with
  | some value => s.create object (.variant value)
  | none => s

def step (s : State ι) : Label ι → Option (State ι)
  | .assign target operand byMove =>
    match s.at? target, s.at? operand with
    | some targetObject, some operandObject =>
      assignStep s target operand byMove targetObject operandObject
    | _, _ => none
  | .subscript dict key => (s.at? dict).bind (subscriptStep s dict key)
  | .get variant =>
    match s.at? variant with
    | some (.variant _) => some s
    | some .emptyVariant => some (s.modify variant fun _ => .variant DbusObject.newI32)
    | _ => none
  | .clone object other byMove =>
    match s object, s.at? other with
    | none, some v =>
      if byMove then some ((s.modify other DbusObject.moved).create object v)
      else some ((s.modify other DbusObject.refilled).create object v.refilled)
    | _, _ => none
  | .newVariant object =>
    match s object with
    | none => some (s.create object (.variant DbusObject.newI32))
    | some _ => none
  | .newVariantOfPointer object pointerToValue =>
    match s object, pointerToValue with
    | none, none => some (s.create object (.variant DbusObject.newI32))
    | none, some pointer =>
      match s pointer with
      | none => none
      | some v =>
        -- The pointer keeps a variant, which is empty then.
        if v.isVariant then some ((s.create pointer .emptyVariant).create object v)
        else some (Function.update (s.create object (.variant v)) pointer none)
    | some _, _ => none
  | .newVariantOfSignature object valueSignature =>
    match s object with
    | none =>
      (signatureOf? valueSignature).map fun sig => s.createVariant object (create? sig)
    | some _ => none
  | .newVariantOfTypeCode object typeCode =>
    match s object with
    | none =>
      some (s.createVariant object
        (if dbusTypeIsValid typeCode then create? [UInt8.ofInt typeCode] else none))
    | some _ => none
  | .newVariantOf object other byMove =>
    match s object, s.at? other with
    | none, some v =>
      if byMove then some ((s.modify other DbusObject.moved).create object v.wrapped)
      else some ((s.modify other DbusObject.refilled).create object v.refilled.wrapped)
    | _, _ => none
  | .assignCpp variant rhs =>
    match s.at? variant with
    | some v =>
      if v.isVariant then some (s.modify variant fun _ => .variant (.basic rhs.value)) else none
    | none => none
  | .assignText variant rhs =>
    match s.at? variant, rhs with
    -- `value->cast<dbus_string>() = rhs` with a null pointer
    | some (.variant (.basic (.string _))), .cString none => none
    | some v, _ =>
      if v.isVariant then some (s.modify variant fun _ => .variant (.basic (newString rhs)))
      else none
    | none, _ => none

/-- A program that starts with objects of which `P` holds. -/
def system (ι : Type) [DecidableEq ι] (P : DbusObject → Prop) :
    TransitionSystem (State ι) (Label ι) where
  init s := ∀ i v, s i = some v → P v
  step := step

theorem create?_eq_some {sig : Bytes} {v : DbusObject} (h : create? sig = some v) :
    ∃ value, createDbusType (DictObject.creationFuel sig) sig = .ok (some value) ∧
      v = .ofValue value := by
  simp only [create?] at h
  split at h
  case h_1 value hvalue => exact ⟨value, hvalue, (Option.some.inj h).symm⟩
  case h_2 => cases h

theorem signature_create {sig : Bytes} {v : DbusObject} (hnul : (0 : UInt8) ∉ sig)
    (h : create? sig = some v) : v.signature = sig := by
  obtain ⟨value, hvalue, rfl⟩ := create?_eq_some h
  cases hvalid : dbusSignatureValidateSingle sig with
  | false =>
    simp [DictObject.creationFuel, createDbusType, cStr_eq_self hnul, hvalid] at hvalue
  | true =>
    obtain ⟨t, rfl, hlimits⟩ := (validateSingle_iff sig).mp hvalid
    have hdefault := createDbusType_render t hlimits (DictObject.creationFuel t.render)
      (Nat.le_succ _)
    rw [hdefault] at hvalue
    cases hvalue
    rw [DbusObject.signature_ofValue, t.default_hasType.signature]

/-! ## What holds of all objects -/

/-- `P` holds of every object that the program holds. -/
def Each (P : DbusObject → Prop) (s : State ι) : Prop := ∀ i v, s i = some v → P v

section Each

variable {P : DbusObject → Prop} {s : State ι}

theorem Each.create (h : Each P s) {object : ι} {v : DbusObject} (hv : P v) :
    Each P (s.create object v) := by
  intro i w hw
  rw [State.create, Function.update_apply] at hw
  split at hw
  case isTrue => exact Option.some.inj hw ▸ hv
  case isFalse => exact h i w hw

theorem Each.createVariant (h : Each P s) {object : ι} {value : Option DbusObject}
    (hvalue : ∀ v ∈ value, P (.variant v)) : Each P (s.createVariant object value) := by
  cases value with
  | none => exact h
  | some v => exact h.create (hvalue v rfl)

theorem Each.release (h : Each P s) (object : ι) : Each P (Function.update s object none) := by
  intro i w hw
  rw [Function.update_apply] at hw
  split at hw
  case isTrue => cases hw
  case isFalse => exact h i w hw

variable {Fits : DbusObject.Access → DbusObject → DbusObject → Prop}

omit [DecidableEq ι] in
theorem Each.at? (hlocal : DbusObject.accessors.Local P Fits) (h : Each P s) {p : Place ι}
    {v : DbusObject} (hv : s.at? p = some v) : P v := by
  obtain ⟨object, hobject, hpart⟩ := Option.bind_eq_some_iff.mp hv
  exact hlocal.at? (h p.object object hobject) hpart

theorem Each.modify (hlocal : DbusObject.accessors.Local P Fits) (h : Each P s) {p : Place ι}
    {f : DbusObject → DbusObject}
    (hf : ∀ v, s.at? p = some v → P v → P (f v) ∧ ∀ a ∈ p.path.getLast?, Fits a v (f v)) :
    Each P (s.modify p f) := by
  rw [State.modify]
  split
  case h_1 => exact h
  case h_2 object hobject =>
    split
    case h_1 => exact h
    case h_2 part hpart =>
      have hat : s.at? p = some part := by rw [State.at?, hobject]; exact hpart
      obtain ⟨hnew, hfits⟩ := hf part hat (h.at? hlocal hat)
      exact h.create (hlocal.put (h p.object object hobject) hpart hnew hfits)

end Each

theorem at?_modify_of_apart (s : State ι) {p q : Place ι} (h : p.Apart q)
    (f : DbusObject → DbusObject) : (s.modify p f).at? q = s.at? q := by
  rw [State.modify]
  split
  case h_1 => rfl
  case h_2 object hobject =>
    split
    case h_1 => rfl
    case h_2 part hpart =>
      by_cases heq : p.object = q.object
      · have happart := Accessors.at?_put_of_apart (T := DbusObject.accessors) (v := object)
          (f part) (h heq)
        simpa [State.at?, State.create, ← heq, hobject] using happart
      · simp only [State.at?, State.create, Function.update_of_ne (Ne.symm heq)]

/-! ## Properties that every step keeps -/

/-- The place that is moved out of when another object is constructed. -/
def Label.movesOut? : Label ι → Option (Place ι)
  | .clone _ other true | .newVariantOf _ other true => some other
  | _ => none

/-- What a property of objects has to meet so that every allowed step keeps it.  `Fits` is what
    it asks of an object that takes the place of another. -/
structure Kept (P : DbusObject → Prop) (Fits : DbusObject.Access → DbusObject → DbusObject → Prop)
    (allowed : State ι → Label ι → Prop) : Prop where
  isLocal : DbusObject.accessors.Local P Fits
  fits : ∀ a {old new : DbusObject}, new.signature = old.signature →
    new.isVariant = old.isVariant → Fits a old new
  basic : ∀ value, P (.basic value)
  emptyVariant : P .emptyVariant
  variant : ∀ {v}, P v → v.isVariant = false → P (.variant v)
  refilled : ∀ {v}, P v → P v.refilled
  moved : ∀ {v}, P v → P v.moved
  subscript : ∀ {key sig items value} (k : Basic), P (.dict key sig items) →
    create? (DictObject.valueSignature ⟨key, sig, []⟩) = some value →
    P (.dict key sig (OrderedMap.assign Basic.less k value items))
  /-- The conditions of the steps. -/
  moveAssign : ∀ {s target operand t x v}, allowed s (.assign target operand true) →
    target ≠ operand → s.at? target = some t → s.at? operand = some x →
    t.moveAssign x = .ok v → (∀ a ∈ target.path.getLast?, Fits a t v) ∧
      ∀ a ∈ operand.path.getLast?, Fits a x x.moved
  copyAssign : ∀ {s target operand t x v}, allowed s (.assign target operand false) →
    target ≠ operand → s.at? target = some t → s.at? operand = some x →
    t.copyAssign x = .ok v → ∀ a ∈ target.path.getLast?, Fits a t v
  moveOut : ∀ {s label other x}, allowed s label → Label.movesOut? label = some other →
    s.at? other = some x → ∀ a ∈ other.path.getLast?, Fits a x x.moved
  ofSignature : ∀ {s object text sig v}, allowed s (.newVariantOfSignature object text) →
    signatureOf? text = some sig → create? sig = some v → P (.variant v)
  ofTypeCode : ∀ {s object typeCode v}, allowed s (.newVariantOfTypeCode object typeCode) →
    dbusTypeIsValid typeCode = true → create? [UInt8.ofInt typeCode] = some v → P (.variant v)

section Kept

variable {P : DbusObject → Prop} {Fits : DbusObject.Access → DbusObject → DbusObject → Prop}
  {allowed : State ι → Label ι → Prop} (kept : Kept P Fits allowed) {s s' : State ι}
include kept

omit [DecidableEq ι] in
theorem Kept.wrapped {v : DbusObject} (hv : P v) : P v.wrapped := by
  cases hvariant : v.isVariant with
  | true => cases v <;> first | exact hv | cases hvariant
  | false =>
    have hsame : v.wrapped = .variant v := by cases v <;> first | rfl | cases hvariant
    exact hsame ▸ kept.variant hv hvariant

theorem Kept.modify (h : Each P s) {p : Place ι} {v : DbusObject} (hv : P v)
    (hfits : ∀ old, s.at? p = some old → ∀ a ∈ p.path.getLast?, Fits a old v) :
    Each P (s.modify p fun _ => v) :=
  h.modify kept.isLocal fun old hold _ => ⟨hv, hfits old hold⟩

theorem Kept.modify_refilled (h : Each P s) (p : Place ι) :
    Each P (s.modify p DbusObject.refilled) := by
  refine h.modify kept.isLocal fun v _ hv => ⟨kept.refilled hv, fun a _ => ?_⟩
  exact kept.fits a v.signature_refilled v.isVariant_refilled

/-- A variant takes the place of another one. -/
theorem Kept.modify_variant (h : Each P s) {p : Place ι} {old new : DbusObject}
    (hold : s.at? p = some old) (hvariant : old.isVariant = true) (hnew : P new)
    (hnewVariant : new.isVariant = true) : Each P (s.modify p fun _ => new) := by
  refine kept.modify h hnew fun old' hold' a _ => ?_
  obtain rfl := Option.some.inj (hold.symm.trans hold')
  exact kept.fits a
    ((DbusObject.signature_of_isVariant hnewVariant).trans
      (DbusObject.signature_of_isVariant hvariant).symm)
    (hnewVariant.trans hvariant.symm)

omit [DecidableEq ι] in
theorem Kept.of_moveAssign {target rhs v : DbusObject} (hrhs : P rhs)
    (h : target.moveAssign rhs = .ok v) : P v := by
  obtain ⟨old, new, -, rfl, -⟩ | ⟨-, rfl⟩ | ⟨-, rfl⟩ := DbusObject.moveAssign_cases h
  · exact kept.basic new
  · exact hrhs
  · exact kept.wrapped hrhs

omit [DecidableEq ι] in
theorem Kept.of_copyAssign {target rhs v : DbusObject} (hrhs : P rhs)
    (h : target.copyAssign rhs = .ok v) : P v := by
  obtain ⟨old, new, -, rfl, -⟩ | ⟨-, rfl⟩ | ⟨-, rfl⟩ := DbusObject.copyAssign_cases h
  · exact kept.basic new
  · exact kept.refilled hrhs
  · exact kept.wrapped (kept.refilled hrhs)

theorem Kept.assign {target operand : Place ι} {byMove : Bool} {t x : DbusObject}
    (h : Each P s) (hallowed : allowed s (.assign target operand byMove))
    (ht : s.at? target = some t) (hx : s.at? operand = some x)
    (hstep : assignStep s target operand byMove t x = some s') : Each P s' := by
  have hrhs := h.at? kept.isLocal hx
  rw [assignStep] at hstep
  split at hstep
  case isTrue =>
    cases hstep
    exact h
  case isFalse hne =>
    cases byMove with
    | true =>
      simp only [if_true] at hstep
      split at hstep
      case h_1 =>
        cases hstep
        exact h
      case h_2 v hassign =>
        obtain ⟨hfits, hmoved⟩ := kept.moveAssign hallowed hne ht hx hassign
        have htarget : Each P (s.modify target fun _ => v) :=
          kept.modify h (kept.of_moveAssign hrhs hassign) fun old hold =>
            Option.some.inj (ht.symm.trans hold) ▸ hfits
        split at hstep
        case isTrue happart =>
          cases hstep
          refine htarget.modify kept.isLocal fun w hw hPw => ⟨kept.moved hPw, ?_⟩
          rw [at?_modify_of_apart s happart] at hw
          exact Option.some.inj (hx.symm.trans hw) ▸ hmoved
        case isFalse =>
          split at hstep <;> cases hstep
          exact htarget
    | false =>
      simp only [Bool.false_eq_true, if_false] at hstep
      split at hstep
      case h_1 =>
        cases hstep
        exact h
      case h_2 v hassign =>
        have hfits := kept.copyAssign hallowed hne ht hx hassign
        have htarget : Each P (s.modify target fun _ => v) :=
          kept.modify h (kept.of_copyAssign hrhs hassign) fun old hold =>
            Option.some.inj (ht.symm.trans hold) ▸ hfits
        split at hstep <;> cases hstep
        exact kept.modify_refilled htarget operand

/-- An object is constructed from what has been moved out of a place. -/
theorem Kept.constructMoved {label : Label ι} {object : ι} {other : Place ι} {w : DbusObject}
    (h : Each P s) (hallowed : allowed s label) (hlabel : label.movesOut? = some other)
    (hw : P w) :
    Each P ((s.modify other DbusObject.moved).create object w) := by
  refine Each.create (h.modify kept.isLocal fun v' hv' hPv => ⟨kept.moved hPv, ?_⟩) hw
  exact kept.moveOut hallowed hlabel hv'

theorem Kept.subscriptStep {dict : Place ι} {key : Basic} {object : DbusObject} (h : Each P s)
    (hobject : s.at? dict = some object)
    (hstep : subscriptStep s dict key object = some s') : Each P s' := by
  have hdict := h.at? kept.isLocal hobject
  cases object with
  | dict keyType sig items =>
    simp only [ObjectStore.subscriptStep] at hstep
    split at hstep
    case isTrue => cases hstep
    case isFalse =>
      split at hstep
      case h_1 =>
        cases hstep
        exact h
      case h_2 =>
        obtain ⟨value, hvalue, rfl⟩ := Option.map_eq_some_iff.mp hstep
        refine kept.modify h (kept.subscript key hdict hvalue) fun old hold a _ => ?_
        obtain rfl := Option.some.inj (hobject.symm.trans hold)
        exact kept.fits a rfl rfl
  | _ => cases hstep

theorem Kept.step {label : Label ι} (h : Each P s) (hallowed : allowed s label)
    (hstep : step s label = some s') : Each P s' := by
  have hi32 : P (.variant DbusObject.newI32) := kept.variant (kept.basic _) rfl
  cases label with
  | assign target operand byMove =>
    simp only [ObjectStore.step] at hstep
    split at hstep
    case h_1 t x ht hx => exact kept.assign h hallowed ht hx hstep
    case h_2 => cases hstep
  | subscript dict key =>
    obtain ⟨object, hobject, hsub⟩ := Option.bind_eq_some_iff.mp hstep
    exact kept.subscriptStep h hobject hsub
  | get variant =>
    simp only [ObjectStore.step] at hstep
    split at hstep <;> cases hstep
    case h_1 => exact h
    case h_2 hv => exact kept.modify_variant h hv rfl hi32 rfl
  | clone object other byMove =>
    simp only [ObjectStore.step] at hstep
    split at hstep
    case h_1 v hfree hv =>
      have hPv := h.at? kept.isLocal hv
      cases byMove with
      | true =>
        cases hstep
        exact kept.constructMoved h hallowed rfl hPv
      | false =>
        cases hstep
        exact (kept.modify_refilled h other).create (kept.refilled hPv)
    case h_2 => cases hstep
  | newVariant object =>
    simp only [ObjectStore.step] at hstep
    split at hstep <;> cases hstep
    exact h.create hi32
  | newVariantOfPointer object pointerToValue =>
    simp only [ObjectStore.step] at hstep
    split at hstep
    case h_1 =>
      cases hstep
      exact h.create hi32
    case h_2 pointer hfree =>
      split at hstep
      case h_1 => cases hstep
      case h_2 v hpointer =>
        have hPv := h pointer v hpointer
        split at hstep <;> cases hstep
        case isTrue => exact (h.create kept.emptyVariant).create hPv
        case isFalse hnot =>
          exact (h.create (kept.variant hPv (Bool.eq_false_of_not_eq_true hnot))).release pointer
    case h_3 => cases hstep
  | newVariantOfSignature object valueSignature =>
    simp only [ObjectStore.step] at hstep
    split at hstep
    case h_1 =>
      obtain ⟨sig, hsig, rfl⟩ := Option.map_eq_some_iff.mp hstep
      exact h.createVariant fun v hv => kept.ofSignature hallowed hsig hv
    case h_2 => cases hstep
  | newVariantOfTypeCode object typeCode =>
    simp only [ObjectStore.step] at hstep
    split at hstep <;> cases hstep
    refine h.createVariant fun v hv => ?_
    split at hv
    case isTrue hvalid => exact kept.ofTypeCode hallowed hvalid hv
    case isFalse => cases hv
  | newVariantOf object other byMove =>
    simp only [ObjectStore.step] at hstep
    split at hstep
    case h_1 v hfree hv =>
      have hPv := h.at? kept.isLocal hv
      cases byMove with
      | true =>
        cases hstep
        exact kept.constructMoved h hallowed rfl (kept.wrapped hPv)
      | false =>
        cases hstep
        exact (kept.modify_refilled h other).create (kept.wrapped (kept.refilled hPv))
    case h_2 => cases hstep
  | assignCpp variant rhs =>
    simp only [ObjectStore.step] at hstep
    split at hstep
    case h_1 v hv =>
      split at hstep <;> cases hstep
      case isTrue hvariant =>
        exact kept.modify_variant h hv hvariant (kept.variant (kept.basic _) rfl) rfl
    case h_2 => cases hstep
  | assignText variant rhs =>
    simp only [ObjectStore.step] at hstep
    split at hstep
    case h_1 => cases hstep
    case h_2 v hv _ =>
      split at hstep <;> cases hstep
      case isTrue hvariant =>
        exact kept.modify_variant h hv hvariant (kept.variant (kept.basic _) rfl) rfl
    case h_3 => cases hstep

end Kept

/-- The property holds of all objects in every run of allowed steps. -/
theorem Kept.each {P : DbusObject → Prop}
    {Fits : DbusObject.Access → DbusObject → DbusObject → Prop}
    {allowed : State ι → Label ι → Prop} (kept : Kept P Fits allowed) {s : State ι}
    (h : (system ι P).ReachableWhen allowed s) : Each P s := by
  apply h.invariant
  case initial => exact fun _ hinit => hinit
  case preserved => exact fun _ _ _ hinv hallowed hstep => kept.step hinv hallowed hstep

end ObjectStore

end Ultrabus
