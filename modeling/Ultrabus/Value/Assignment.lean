import Ultrabus.Value.Arithmetic
import Ultrabus.Value.Types

/-! # Assignment through the base class

`operator= (dbus_type&&)` of every class: what it takes over from a value whose class is
known at run time only, and what it throws. -/

namespace Ultrabus

/-! ## Basic values -/

/-- The integer that an arithmetic value is converted to; fractions are cut off. -/
def Stored.toInteger : Stored → Int
  | .integer _ n => n
  | .double bits => Binary64.truncate bits
  | .text _ => 0

/-- Conversion of a stored value to the C++ type of a class derived from `dbus_basic`.  What
    becomes of a double outside the range of an integer type is undefined in C++. -/
def BasicType.convert (type : BasicType) (value : Basic) : Basic :=
  let n := value.stored.toInteger
  match type with
  | .byte => .byte (UInt8.ofInt n)
  | .boolean =>
    match value.stored with
    | .double bits => .boolean (!Binary64.equal bits 0)
    | _ => .boolean (n ≠ 0)
  | .int16 => .int16 (Int16.ofInt n)
  | .uint16 => .uint16 (UInt16.ofInt n)
  | .int32 => .int32 (Int32.ofInt n)
  | .uint32 => .uint32 (UInt32.ofInt n)
  | .int64 => .int64 (Int64.ofInt n)
  | .uint64 => .uint64 (UInt64.ofInt n)
  | .double =>
    match value.stored with
    | .double bits => .double bits
    | _ => .double (Binary64.ofInt n)
  -- Classes with an assignment of their own.
  | .string | .objectPath | .signature | .unixFd => value

/-- The basic classes with an `operator=` of their own. -/
def BasicType.ownAssignment? : BasicType → Option Bytes
  | .string => some (text "dbus_string")
  | .objectPath => some (text "dbus_opath")
  | .signature => some (text "dbus_signature")
  | .unixFd => some (text "dbus_unix_fd")
  | _ => none

def cannotMove (className : Bytes) : Exception :=
  .invalidArgument (text "Can't move a dbus_type with different signature to a " ++ className)

/-- `operator= (dbus_type&&)` of `dbus_string`, `dbus_opath`, `dbus_signature` and
    `dbus_unix_fd`, and that of `dbus_basic`. -/
def Basic.moveAssign (target : Basic) (rhs : DbusType) : Except Exception Basic :=
  match target.type.ownAssignment?, rhs with
  | some className, .basic value =>
    if value.type = target.type then .ok value else .error (cannotMove className)
  | some className, _ => .error (cannotMove className)
  | none, .basic value =>
    match value.type with
    | .string => .error (.invalidArgument (text "Can't assign a dbus_string to a dbus_basic"))
    | .objectPath => .error (.invalidArgument (text "Can't assign a dbus_opath to a dbus_basic"))
    | .signature =>
      .error (.invalidArgument (text "Can't assign a dbus_signature to a dbus_basic"))
    | _ => .ok (target.type.convert value)
  | none, _ => .error (.invalidArgument (text "Can't assign a non-dbus_basic to a dbus_basic"))

/-- A number of the same class is copied. -/
theorem BasicType.convert_self {value : Basic} (h : value.type.ownAssignment? = none) :
    value.type.convert value = value := by
  cases value with
  | byte value =>
    have hlt := value.toNat_lt
    simp only [Basic.type, convert, Basic.stored, Stored.toInteger, UInt8.ofInt]
    rw [Int.emod_eq_of_lt (by omega) (by omega), Int.toNat_natCast, UInt8.ofNat_toNat]
  | boolean value => cases value <;> rfl
  | int16 value =>
    simp only [Basic.type, convert, Basic.stored, Stored.toInteger, Int16.ofInt_toInt]
  | uint16 value =>
    have hlt := value.toNat_lt
    simp only [Basic.type, convert, Basic.stored, Stored.toInteger, UInt16.ofInt]
    rw [Int.emod_eq_of_lt (by omega) (by omega), Int.toNat_natCast, UInt16.ofNat_toNat]
  | int32 value =>
    simp only [Basic.type, convert, Basic.stored, Stored.toInteger, Int32.ofInt_toInt]
  | uint32 value =>
    have hlt := value.toNat_lt
    simp only [Basic.type, convert, Basic.stored, Stored.toInteger, UInt32.ofInt]
    rw [Int.emod_eq_of_lt (by omega) (by omega), Int.toNat_natCast, UInt32.ofNat_toNat]
  | int64 value =>
    simp only [Basic.type, convert, Basic.stored, Stored.toInteger, Int64.ofInt_toInt]
  | uint64 value =>
    have hlt := value.toNat_lt
    simp only [Basic.type, convert, Basic.stored, Stored.toInteger, UInt64.ofInt]
    rw [Int.emod_eq_of_lt (by omega) (by omega), Int.toNat_natCast, UInt64.ofNat_toNat]
  | double bits => rfl
  | string value => cases h
  | objectPath value => cases h
  | signature value => cases h
  | unixFd value => cases h

theorem Basic.moveAssign_same {target value : Basic} (h : value.type = target.type) :
    target.moveAssign (.basic value) = .ok value := by
  cases hown : target.type.ownAssignment? with
  | some className => simp only [Basic.moveAssign, hown, if_pos h]
  | none =>
    have hconvert := BasicType.convert_self (h ▸ hown)
    rw [h] at hconvert
    simp only [Basic.moveAssign, hown]
    rw [← h] at hown
    cases value with
    | string value => cases hown
    | objectPath value => cases hown
    | signature value => cases hown
    | unixFd value => cases hown
    | _ => exact congrArg Except.ok hconvert

/-! ## All values -/

/-- `operator= (dbus_type&&)`. -/
def DbusType.moveAssign (target rhs : DbusType) : Except Exception DbusType :=
  match target with
  | .basic target => (target.moveAssign rhs).map .basic
  | .array _ _ =>
    match rhs with
    | .array sig items => .ok (.array sig items)
    | _ => .error (cannotMove (text "dbus_array"))
  | .struct _ _ =>
    match rhs with
    | .struct sig items => .ok (.struct sig items)
    | _ => .error (cannotMove (text "dbus_struct"))
  | .dict key _ _ =>
    match rhs with
    | .dict key' sig items => if key' = key then .ok (.dict key sig items) else .error .badCast
    | _ => .error (cannotMove (text "dbus_dict"))
  | .variant _ => .ok (DbusVariant.ofPointer (some rhs))

/-! ## Classes and signatures -/

/-- The signature is one that objects of the class have. -/
def DbusType.ClassFits : DbusType → Prop
  | .basic _ => True
  | .array sig _ => sig.head? = some dbusTypeArray
  | .struct sig _ => sig.head? = some dbusStructBeginChar
  | .dict key sig _ => ∃ value, sig = dictSignature key value
  | .variant _ => True

def DbusType.isArray : DbusType → Bool
  | .array _ _ => true
  | _ => false

def DbusType.isDict : DbusType → Bool
  | .dict _ _ _ => true
  | _ => false

/-- The first character of the signatures of a class. -/
def DbusType.firstCode : DbusType → UInt8
  | .basic value => value.type.code
  | .array _ _ => dbusTypeArray
  | .struct _ _ => dbusStructBeginChar
  | .dict _ _ _ => dbusTypeArray
  | .variant _ => dbusTypeVariant

theorem DbusType.ClassFits.head_signature {v : DbusType} (h : v.ClassFits) :
    v.signature.head? = some v.firstCode := by
  cases v with
  | basic value => rfl
  | array sig items => exact h
  | struct sig items => exact h
  | dict key sig items =>
    obtain ⟨value, rfl⟩ := h
    rfl
  | variant value => rfl

theorem dictSignature_injective {key key' : BasicType} {value value' : Bytes}
    (h : dictSignature key value = dictSignature key' value') : key = key' ∧ value = value' := by
  simp only [dictSignature, dictEntrySignature, List.cons.injEq, true_and] at h
  exact ⟨BasicType.code_injective h.1, List.append_cancel_right h.2⟩

theorem DbusType.ClassFits.firstCode_eq {a b : DbusType} (ha : a.ClassFits) (hb : b.ClassFits)
    (hsig : a.signature = b.signature) : a.firstCode = b.firstCode := by
  have hhead := ha.head_signature
  rw [hsig, hb.head_signature] at hhead
  exact (Option.some.inj hhead).symm

/-- Arrays and dicts have signatures that start alike. -/
theorem DbusType.firstCode_eq_array_iff (v : DbusType) :
    v.firstCode = dbusTypeArray ↔ v.isArray = true ∨ v.isDict = true := by
  have hstruct : dbusStructBeginChar ≠ dbusTypeArray := by decide
  have hvariant : dbusTypeVariant ≠ dbusTypeArray := by decide
  cases v with
  | basic value => simp [firstCode, isArray, isDict]
  | array sig items => simp [firstCode, isArray]
  | struct sig items => simp [firstCode, isArray, isDict, hstruct]
  | dict key sig items => simp [firstCode, isDict]
  | variant value => simp [firstCode, isArray, isDict, hvariant]

/-- A value of the same signature is taken over, unless one of the two is an array and the
    other one a dict. -/
theorem DbusType.moveAssign_of_signature_eq {a b : DbusType} (ha : a.ClassFits)
    (hb : b.ClassFits) (hsig : a.signature = b.signature) (harray : a.isArray = b.isArray) :
    a.moveAssign b = .ok b := by
  have hfirst := ha.firstCode_eq hb hsig
  have hstruct : dbusStructBeginChar ≠ dbusTypeArray := by decide
  have hvariant : dbusTypeVariant ≠ dbusTypeArray := by decide
  have hvariant' : dbusTypeVariant ≠ dbusStructBeginChar := by decide
  cases a with
  | basic target =>
    cases b with
    | basic value =>
      have htype : value.type = target.type := BasicType.code_injective hfirst.symm
      rw [moveAssign, Basic.moveAssign_same htype]
      rfl
    | array sig items => exact absurd hfirst target.type.code_ne_array
    | struct sig items => exact absurd hfirst target.type.code_ne_structBegin
    | dict key sig items => exact absurd hfirst target.type.code_ne_array
    | variant value => exact absurd hfirst target.type.code_ne_variant
  | array sig items =>
    cases b with
    | array sig' items' => rfl
    | basic _ | struct _ _ | dict _ _ _ | variant _ => cases harray
  | struct sig items =>
    cases b with
    | basic value => exact absurd hfirst.symm value.type.code_ne_structBegin
    | array sig' items' => cases harray
    | struct sig' items' => rfl
    | dict key sig' items' => exact absurd hfirst hstruct
    | variant value => exact absurd hfirst.symm hvariant'
  | dict key sig items =>
    cases b with
    | basic value => exact absurd hfirst.symm value.type.code_ne_array
    | array sig' items' => cases harray
    | struct sig' items' => exact absurd hfirst hstruct.symm
    | dict key' sig' items' =>
      obtain ⟨value, rfl⟩ := ha
      obtain ⟨value', rfl⟩ := hb
      obtain ⟨rfl, -⟩ := dictSignature_injective hsig
      exact if_pos rfl
    | variant value => exact absurd hfirst.symm hvariant
  | variant value =>
    cases b with
    | basic value' => exact absurd hfirst.symm value'.type.code_ne_variant
    | array sig items => exact absurd hfirst hvariant
    | struct sig items => exact absurd hfirst hvariant'
    | dict key sig items => exact absurd hfirst hvariant
    | variant value' => rfl

end Ultrabus
