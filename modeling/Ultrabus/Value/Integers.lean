import Ultrabus.Value.Json
import Ultrabus.Value.Objects

/-! # Integers through the base class

What becomes of an integer that is constructed or assigned through `dbus_type`: the constructor
of `dbus_basic` from a `dbus_type` and the two polymorphic `operator=` convert it implicitly. -/

namespace Ultrabus

/-- The integer types: bytes, integers of 16, 32 and 64 bits, and file descriptors. -/
def BasicType.isInteger : BasicType → Bool
  | .byte | .int16 | .uint16 | .int32 | .uint32 | .int64 | .uint64 | .unixFd => true
  | .boolean | .double | .string | .objectPath | .signature => false

/-- The values of the C++ type that stores an integer type. -/
def BasicType.InRange : BasicType → Int → Prop
  | .byte, n => 0 ≤ n ∧ n < 2 ^ 8
  | .int16, n => -2 ^ 15 ≤ n ∧ n < 2 ^ 15
  | .uint16, n => 0 ≤ n ∧ n < 2 ^ 16
  | .int32, n | .unixFd, n => -2 ^ 31 ≤ n ∧ n < 2 ^ 31
  | .uint32, n => 0 ≤ n ∧ n < 2 ^ 32
  | .int64, n => -2 ^ 63 ≤ n ∧ n < 2 ^ 63
  | .uint64, n => 0 ≤ n ∧ n < 2 ^ 64
  | .boolean, _ | .double, _ | .string, _ | .objectPath, _ | .signature, _ => False

/-- The number that a value stores. -/
def Basic.number (v : Basic) : Int := v.stored.toInteger

/-- `to_string` of the basic classes. -/
def Basic.toString : Basic → Bytes
  | .boolean v => if v then text "true" else text "false"
  | .byte v => Json.intText v.toNat
  | .int16 v => Json.intText v.toInt
  | .uint16 v => Json.intText v.toNat
  | .int32 v => Json.intText v.toInt
  | .uint32 v => Json.intText v.toNat
  | .int64 v => Json.intText v.toInt
  | .uint64 v => Json.intText v.toNat
  | .double bits => doubleText bits
  | .string s | .objectPath s | .signature s => s
  | .unixFd v => Json.intText v.toInt

/-- `dbus_basic (const dbus_type& other)` of the class for a type. -/
def BasicType.construct (type : BasicType) (other : DbusType) : Except Exception Basic :=
  match other with
  | .basic value =>
    match value.type with
    | .string => .error (.invalidArgument (text "Can't assign a dbus_string to a dbus_basic"))
    | .objectPath => .error (.invalidArgument (text "Can't assign a dbus_opath to a dbus_basic"))
    | .signature =>
      .error (.invalidArgument (text "Can't assign a dbus_signature to a dbus_basic"))
    | _ => .ok (type.convert value)
  | _ => .error (.invalidArgument (text "Can't assign a non-dbus_basic to a dbus_basic"))

/-- The ways for a basic value to get another one through `dbus_type`.  The classes with an
    assignment of their own have no such constructor. -/
inductive Intake where
  | construct (type : BasicType) (plain : type.ownAssignment? = none)
  | copyAssign (x : Basic)
  | moveAssign (x : Basic)

/-- The class of the value that is constructed or assigned to. -/
def Intake.type : Intake → BasicType
  | .construct type _ => type
  | .copyAssign x | .moveAssign x => x.type

/-- What the value is afterwards, or what is thrown. -/
def Intake.run : Intake → DbusType → Except Exception Basic
  | .construct type _, y => type.construct y
  | .copyAssign x, y => DbusObject.copyBasic x y
  | .moveAssign x, y => x.moveAssign y

/-- The value gets the number that the other one has, so that the two are equal and have the
    same text, or `std::invalid_argument` is thrown. -/
def Intake.KeepsNumber (intake : Intake) (y : Basic) : Prop :=
  match intake.run (.basic y) with
  | .ok x => x.number = y.number ∧ x.equal y = true ∧ x.toString = y.toString
  | .error e => ∃ what, e = .invalidArgument what

/-! ## Conversions -/

theorem BasicType.construct_integer (type : BasicType) {y : Basic}
    (hy : y.type.isInteger = true) : type.construct (.basic y) = .ok (type.convert y) := by
  cases y <;> first | rfl | cases hy

/-- The three copies of the `switch` agree. -/
theorem Intake.run_integer {intake : Intake} (hplain : intake.type.ownAssignment? = none)
    {y : Basic} (hy : y.type.isInteger = true) :
    intake.run (.basic y) = .ok (intake.type.convert y) := by
  have hmove : ∀ {x : Basic}, x.type.ownAssignment? = none →
      x.moveAssign (.basic y) = .ok (x.type.convert y) := by
    intro x hx
    simp only [Basic.moveAssign, hx]
    cases y <;> first | rfl | cases hy
  cases intake with
  | construct type _ => exact type.construct_integer hy
  | copyAssign x =>
    have hx : x.type.ownAssignment? = none := hplain
    simp only [Intake.run, DbusObject.copyBasic, hx]
    exact hmove hx
  | moveAssign x => exact hmove hplain

/-- A file descriptor takes file descriptors only. -/
theorem Intake.run_unixFd {intake : Intake} (hfd : intake.type = .unixFd) (y : Basic) :
    intake.run (.basic y) = .ok y ∨
      ∃ what, intake.run (.basic y) = .error (.invalidArgument what) := by
  cases intake with
  | construct type hplain =>
    obtain rfl : type = .unixFd := hfd
    cases hplain
  | copyAssign x =>
    have hx : x.type = .unixFd := hfd
    simp only [Intake.run, DbusObject.copyBasic, hx, BasicType.ownAssignment?]
    split
    · exact .inl rfl
    · exact .inr ⟨_, rfl⟩
  | moveAssign x =>
    have hx : x.type = .unixFd := hfd
    simp only [Intake.run, Basic.moveAssign, hx, BasicType.ownAssignment?]
    split
    · exact .inl rfl
    · exact .inr ⟨_, rfl⟩

/-- A conversion keeps the number exactly if the type has it. -/
theorem BasicType.number_convert_iff {type : BasicType} (htype : type.isInteger = true)
    (hplain : type.ownAssignment? = none) (y : Basic) :
    (type.convert y).number = y.number ↔ type.InRange y.number := by
  cases type with
  | byte =>
    change ((UInt8.ofInt y.number).toNat : Int) = y.number ↔ 0 ≤ y.number ∧ y.number < 2 ^ 8
    generalize y.number = n
    rw [UInt8.ofInt, UInt8.toNat_ofNat']
    omega
  | uint16 =>
    change ((UInt16.ofInt y.number).toNat : Int) = y.number ↔ 0 ≤ y.number ∧ y.number < 2 ^ 16
    generalize y.number = n
    rw [UInt16.ofInt, UInt16.toNat_ofNat']
    omega
  | uint32 =>
    change ((UInt32.ofInt y.number).toNat : Int) = y.number ↔ 0 ≤ y.number ∧ y.number < 2 ^ 32
    generalize y.number = n
    rw [UInt32.ofInt, UInt32.toNat_ofNat']
    omega
  | uint64 =>
    change ((UInt64.ofInt y.number).toNat : Int) = y.number ↔ 0 ≤ y.number ∧ y.number < 2 ^ 64
    generalize y.number = n
    rw [UInt64.ofInt, UInt64.toNat_ofNat']
    omega
  | int16 =>
    change (Int16.ofInt y.number).toInt = y.number ↔ -2 ^ 15 ≤ y.number ∧ y.number < 2 ^ 15
    generalize y.number = n
    exact ⟨fun h => h ▸ ⟨Int16.le_toInt _, Int16.toInt_lt _⟩,
      fun h => Int16.toInt_ofInt_of_le h.1 h.2⟩
  | int32 =>
    change (Int32.ofInt y.number).toInt = y.number ↔ -2 ^ 31 ≤ y.number ∧ y.number < 2 ^ 31
    generalize y.number = n
    exact ⟨fun h => h ▸ ⟨Int32.le_toInt _, Int32.toInt_lt _⟩,
      fun h => Int32.toInt_ofInt_of_le h.1 h.2⟩
  | int64 =>
    change (Int64.ofInt y.number).toInt = y.number ↔ -2 ^ 63 ≤ y.number ∧ y.number < 2 ^ 63
    generalize y.number = n
    exact ⟨fun h => h ▸ ⟨Int64.le_toInt _, Int64.toInt_lt _⟩,
      fun h => Int64.toInt_ofInt_of_le h.1 h.2⟩
  | unixFd => cases hplain
  | boolean | double | string | objectPath | signature => cases htype

/-! ## Numbers, comparison and text -/

theorem Basic.stored_of_integer {v : Basic} (h : v.type.isInteger = true) :
    ∃ t, v.stored = .integer t v.number := by
  cases v <;> first | exact ⟨_, rfl⟩ | cases h

theorem Basic.toString_of_integer {v : Basic} (h : v.type.isInteger = true) :
    v.toString = Json.intText v.number := by
  cases v <;> first | rfl | cases h

/-- Equal numbers compare equal and are printed alike, whatever types store them. -/
theorem Basic.equal_of_number_eq {x y : Basic} (hx : x.type.isInteger = true)
    (hy : y.type.isInteger = true) (h : x.number = y.number) :
    x.equal y = true ∧ x.toString = y.toString := by
  obtain ⟨s, hs⟩ := Basic.stored_of_integer hx
  obtain ⟨t, ht⟩ := Basic.stored_of_integer hy
  constructor
  · simp [Basic.equal, hs, ht, h, Stored.equal]
  · rw [Basic.toString_of_integer hx, Basic.toString_of_integer hy, h]

/-- For any two integer types and any value, a value that is constructed or assigned through
    `dbus_type` has the number of the other one, or the call throws, exactly if the number is
    one of its type or it is a file descriptor. -/
theorem Intake.keepsNumber_iff {intake : Intake} (htype : intake.type.isInteger = true)
    {y : Basic} (hy : y.type.isInteger = true) :
    intake.KeepsNumber y ↔ intake.type = .unixFd ∨ intake.type.InRange y.number := by
  by_cases hfd : intake.type = .unixFd
  · refine iff_of_true ?_ (.inl hfd)
    unfold Intake.KeepsNumber
    obtain hsame | ⟨what, hthrown⟩ := Intake.run_unixFd hfd y
    · rw [hsame]
      exact ⟨rfl, Basic.equal_of_number_eq hy hy rfl⟩
    · rw [hthrown]
      exact ⟨what, rfl⟩
  · have hplain : intake.type.ownAssignment? = none := by
      cases hcase : intake.type <;> rw [hcase] at htype hfd <;>
        first | rfl | exact absurd rfl hfd | cases htype
    have hconvert := BasicType.number_convert_iff htype hplain y
    unfold Intake.KeepsNumber
    rw [Intake.run_integer hplain hy]
    constructor
    · rintro ⟨hnumber, -⟩
      exact .inr (hconvert.mp hnumber)
    · rintro (hsame | hrange)
      · exact absurd hsame hfd
      · have hnumber := hconvert.mpr hrange
        have hinteger : (intake.type.convert y).type.isInteger = true := by
          rw [DbusObject.type_convert hplain]
          exact htype
        exact ⟨hnumber, Basic.equal_of_number_eq hinteger hy hnumber⟩

/-- The largest byte fits in 16 bits with a sign. -/
theorem byte_int16_keepsNumber :
    (Intake.copyAssign (.int16 0)).KeepsNumber (.byte 255) :=
  (Intake.keepsNumber_iff rfl rfl).mpr (.inr ⟨by decide, by decide⟩)

/-- 300 becomes 44 in a byte. -/
theorem int32_byte_not_keepsNumber :
    (Basic.int32 300).type.isInteger = true ∧
      ¬ (Intake.copyAssign (.byte 0)).KeepsNumber (.int32 300) := by
  refine ⟨rfl, fun h => ?_⟩
  have hrun : (Intake.copyAssign (.byte 0)).run (.basic (.int32 300)) = .ok (.byte 44) := by
    decide +kernel
  simp only [Intake.KeepsNumber, hrun] at h
  exact absurd h.1 (by decide)

end Ultrabus
