import Mathlib.Data.Int.Order.Basic
import Mathlib.Data.List.Lex
import Ultrabus.Lib.Binary64
import Ultrabus.Lib.OrderedMap
import Ultrabus.Value.Signature

/-! # Basic values

The thirteen classes derived from `dbus_basic_base`, the checks on the content of
strings, object paths and signatures, and the order in which `std::map` keeps the keys
of a dict.  A double is its bit pattern and a file descriptor is an `int` of 32 bits.
The `DBusBasicValue` union that carries a basic value to and from libdbus is modelled by
`Basic` too: it is always read through the type code that it was written with. -/

namespace Ultrabus

inductive Exception where
  | invalidArgument (what : Bytes)
  | badCast
  | badAlloc
deriving DecidableEq, Repr

/-- A value of one of the classes derived from `dbus_basic_base`. -/
inductive Basic where
  | byte (value : UInt8)
  | boolean (value : Bool)
  | int16 (value : Int16)
  | uint16 (value : UInt16)
  | int32 (value : Int32)
  | uint32 (value : UInt32)
  | int64 (value : Int64)
  | uint64 (value : UInt64)
  | double (bits : UInt64)
  | string (value : Bytes)
  | objectPath (value : Bytes)
  | signature (value : Bytes)
  | unixFd (value : Int32)
deriving DecidableEq, Repr

def Basic.type : Basic → BasicType
  | .byte _ => .byte
  | .boolean _ => .boolean
  | .int16 _ => .int16
  | .uint16 _ => .uint16
  | .int32 _ => .int32
  | .uint32 _ => .uint32
  | .int64 _ => .int64
  | .uint64 _ => .uint64
  | .double _ => .double
  | .string _ => .string
  | .objectPath _ => .objectPath
  | .signature _ => .signature
  | .unixFd _ => .unixFd

/-! ## Content of the string types -/

def inRange (low high b : UInt8) : Bool := low ≤ b && b ≤ high

def isContinuation (b : UInt8) : Bool := inRange 0x80 0xBF b

/-- UTF-8 without NUL bytes, overlong forms and surrogates. -/
def validUtf8 : Bytes → Bool
  | [] => true
  | b :: rest =>
    if b = 0 then false
    else if b < 0x80 then validUtf8 rest
    else
      -- The leading byte may narrow the range of the first continuation byte.
      match rest with
      | c :: rest₁ =>
        if inRange 0xC2 0xDF b then isContinuation c && validUtf8 rest₁
        else
          match rest₁ with
          | d :: rest₂ =>
            if inRange 0xE0 0xEF b then
              inRange (if b = 0xE0 then 0xA0 else 0x80) (if b = 0xED then 0x9F else 0xBF) c
                && isContinuation d && validUtf8 rest₂
            else
              match rest₂ with
              | e :: rest₃ =>
                inRange 0xF0 0xF4 b
                  && inRange (if b = 0xF0 then 0x90 else 0x80) (if b = 0xF4 then 0x8F else 0xBF) c
                  && isContinuation d && isContinuation e && validUtf8 rest₃
              | [] => false
          | [] => false
      | [] => false

/-- A character of a path element: `[A-Za-z0-9_]`. -/
def isPathChar (b : UInt8) : Bool :=
  inRange 'A'.toUInt8 'Z'.toUInt8 b || inRange 'a'.toUInt8 'z'.toUInt8 b ||
    inRange '0'.toUInt8 '9'.toUInt8 b || b = '_'.toUInt8

/-- Path elements separated by single slashes; `start` holds right after a slash. -/
def validPathElements (start : Bool) : Bytes → Bool
  | [] => !start
  | b :: rest =>
    if b = '/'.toUInt8 then !start && validPathElements true rest
    else isPathChar b && validPathElements false rest

def dbusValidatePath : Bytes → Bool
  | [] => false
  | b :: rest => b = '/'.toUInt8 && (rest.isEmpty || validPathElements true rest)

/-- What libdbus requires of the content of a basic value in a message. -/
def Basic.Valid : Basic → Prop
  | .string s => validUtf8 s = true
  | .objectPath s => dbusValidatePath s = true
  | .signature s => dbusSignatureValidate s = true
  | _ => True

instance (v : Basic) : Decidable v.Valid :=
  match v with
  | .string s => inferInstanceAs (Decidable (validUtf8 s = true))
  | .objectPath s => inferInstanceAs (Decidable (dbusValidatePath s = true))
  | .signature s => inferInstanceAs (Decidable (dbusSignatureValidate s = true))
  | .byte _ | .boolean _ | .int16 _ | .uint16 _ | .int32 _ | .uint32 _ | .int64 _ | .uint64 _
  | .double _ | .unixFd _ => isTrue trivial

/-! ## Exchange with libdbus -/

/-- `to_DBusBasicValue`: the string classes hand out `c_str()`. -/
def Basic.toDBusBasicValue : Basic → Basic
  | .string s => .string (cStr s)
  | .objectPath s => .objectPath (cStr s)
  | .signature s => .signature (cStr s)
  | v => v

/-- The constructors from a `DBusBasicValue`; those of `dbus_opath` and `dbus_signature`
    check the text. -/
def Basic.ofDBusBasicValue : Basic → Except Exception Basic
  | .objectPath s =>
    if dbusValidatePath s then .ok (.objectPath s)
    else .error (.invalidArgument (text "Invalid object path"))
  | .signature s =>
    if dbusSignatureValidate s then .ok (.signature s)
    else .error (.invalidArgument (text "Invalid DBus signature"))
  | v => .ok v

/-! ## C++ values -/

/-- The types that `dbus_basic_cpp_types` maps to. -/
def isCppType : BasicType → Bool
  | .objectPath | .signature | .unixFd => false
  | _ => true

/-- A C++ value of one of `dbus_basic_cpp_types`, as the D-Bus value made of it. -/
structure CppValue where
  value : Basic
  cpp : isCppType value.type = true

/-- `std::initializer_list<T>` for `T` one of `dbus_basic_cpp_types`. -/
structure CppList where
  type : BasicType
  cpp : isCppType type = true
  values : List Basic
  typed : ∀ v ∈ values, v.type = type

/-- A text as a `const char*`, which may be null, or as a `std::string`. -/
inductive TextArg where
  | cString (value : Option Bytes)
  | string (value : Bytes)

/-- `new dbus_string (value)`. -/
def newString : TextArg → Basic
  | .cString value => .string (cStr (value.getD []))
  | .string value => .string value

/-- `new dbus_opath (value)`. -/
def newOpath : TextArg → Except Exception Basic
  | .cString (some value) =>
    if dbusValidatePath (cStr value) then .ok (.objectPath (cStr value))
    else .error (.invalidArgument (text "Invalid object path"))
  | .cString none => .error (.invalidArgument (text "Invalid object path"))
  | .string value =>
    if dbusValidatePath (cStr value) then .ok (.objectPath value)
    else .error (.invalidArgument (text "Invalid object path"))

/-- `new dbus_signature (value)`. -/
def newSignature : TextArg → Except Exception Basic
  | .cString (some value) =>
    if dbusSignatureValidate (cStr value) then .ok (.signature (cStr value))
    else .error (.invalidArgument (text "Invalid DBus signature"))
  | .cString none => .error (.invalidArgument (text "Invalid DBus signature"))
  | .string value =>
    if dbusSignatureValidate (cStr value) then .ok (.signature value)
    else .error (.invalidArgument (text "Invalid DBus signature"))

/-- The string classes among which the functions on texts choose. -/
inductive TextType where
  | string | objectPath | signature
deriving DecidableEq, Repr

def TextType.type : TextType → BasicType
  | .string => .string
  | .objectPath => .objectPath
  | .signature => .signature

/-- The string class with a type code, if any. -/
def TextType.ofCode? (code : UInt8) : Option TextType :=
  [.string, .objectPath, .signature].find? (·.type.code = code)

def newText : TextType → TextArg → Except Exception Basic
  | .string, value => .ok (newString value)
  | .objectPath, value => newOpath value
  | .signature, value => newSignature value

theorem TextType.code_of_ofCode? {code : UInt8} {type : TextType}
    (h : TextType.ofCode? code = some type) : code = type.type.code := by
  simpa [eq_comm] using List.find?_some h

theorem TextType.ofCode?_code (t : TextType) : TextType.ofCode? t.type.code = some t := by
  cases t <;> decide

theorem newText_type {type : TextType} {value : TextArg} {v : Basic}
    (h : newText type value = .ok v) : v.type = type.type := by
  cases type with
  | string =>
    obtain rfl := Except.ok.inj h
    cases value <;> rfl
  | objectPath =>
    cases value with
    | cString value =>
      cases value with
      | none => cases h
      | some value =>
        simp only [newText, newOpath] at h
        split at h <;> cases h
        rfl
    | string value =>
      simp only [newText, newOpath] at h
      split at h <;> cases h
      rfl
  | signature =>
    cases value with
    | cString value =>
      cases value with
      | none => cases h
      | some value =>
        simp only [newText, newSignature] at h
        split at h <;> cases h
        rfl
    | string value =>
      simp only [newText, newSignature] at h
      split at h <;> cases h
      rfl

/-! ## What the string classes accept -/

/-- The text is one that a value of the class may have. -/
def TextType.Content (s : Bytes) : TextType → Prop
  | .string => True
  | .objectPath => dbusValidatePath s = true
  | .signature => dbusSignatureValidate s = true

/-- The value of the class with a text. -/
def TextType.value (s : Bytes) : TextType → Basic
  | .string => .string s
  | .objectPath => .objectPath s
  | .signature => .signature s

/-- What the checks see: the text up to its first NUL, if there is a text. -/
def TextArg.checked? : TextArg → Option Bytes
  | .cString value => value.map cStr
  | .string value => some (cStr value)

/-- The text that a value made of it keeps. -/
def TextArg.kept : TextArg → Bytes
  | .cString value => cStr (value.getD [])
  | .string value => value

/-- The constructor of the class takes the text. -/
def TextType.Accepts (type : TextType) (value : TextArg) : Prop :=
  type = .string ∨ ∃ s, value.checked? = some s ∧ type.Content s

instance (s : Bytes) (type : TextType) : Decidable (type.Content s) :=
  match type with
  | .string => isTrue trivial
  | .objectPath => inferInstanceAs (Decidable (dbusValidatePath s = true))
  | .signature => inferInstanceAs (Decidable (dbusSignatureValidate s = true))

instance (type : TextType) (value : TextArg) : Decidable (type.Accepts value) :=
  inferInstanceAs (Decidable (type = .string ∨ ∃ s ∈ value.checked?, type.Content s))

theorem newText_of_accepts {type : TextType} {value : TextArg} (h : type.Accepts value) :
    newText type value = .ok (type.value value.kept) := by
  obtain rfl | ⟨s, hs, hcontent⟩ := h
  · cases value <;> rfl
  · cases value with
    | cString value =>
      obtain ⟨value, rfl, rfl⟩ := Option.map_eq_some_iff.mp hs
      cases type with
      | string => rfl
      | objectPath | signature => exact if_pos hcontent
    | string value =>
      obtain rfl := Option.some.inj hs
      cases type with
      | string => rfl
      | objectPath | signature => exact if_pos hcontent

theorem newText_of_not_accepts {type : TextType} {value : TextArg} (h : ¬ type.Accepts value) :
    ∃ what, newText type value = .error (.invalidArgument what) := by
  simp only [TextType.Accepts, not_or, not_exists, not_and] at h
  obtain ⟨htype, hcontent⟩ := h
  cases type with
  | string => exact absurd rfl htype
  | objectPath | signature =>
    cases value with
    | cString value =>
      cases value with
      | none => exact ⟨_, rfl⟩
      | some value => exact ⟨_, if_neg (hcontent _ rfl)⟩
    | string value => exact ⟨_, if_neg (hcontent _ rfl)⟩

theorem newText_eq_ok_iff {type : TextType} {value : TextArg} {v : Basic} :
    newText type value = .ok v ↔ type.Accepts value ∧ type.value value.kept = v := by
  by_cases h : type.Accepts value
  · rw [newText_of_accepts h, Except.ok.injEq]
    exact ⟨fun hv => ⟨h, hv⟩, fun hv => hv.2⟩
  · obtain ⟨what, hwhat⟩ := newText_of_not_accepts h
    rw [hwhat]
    exact iff_of_false (by simp) fun hv => h hv.1

/-! ## Keys of a dict -/

def Basic.isNaN : Basic → Bool
  | .double bits => Binary64.isNaN bits
  | _ => false

/-- Comparison of texts: lexicographic on unsigned bytes. -/
def textLess (a b : Bytes) : Bool := a.map UInt8.toNat < b.map UInt8.toNat

/-- `std::less` on the key class of a dict: `operator<=>` of two values of one class.
    A dict never compares keys of different classes. -/
def Basic.less : Basic → Basic → Bool
  | .byte a, .byte b => a < b
  | .boolean a, .boolean b => a < b
  | .int16 a, .int16 b => a < b
  | .uint16 a, .uint16 b => a < b
  | .int32 a, .int32 b => a < b
  | .uint32 a, .uint32 b => a < b
  | .int64 a, .int64 b => a < b
  | .uint64 a, .uint64 b => a < b
  | .double a, .double b => Binary64.less a b
  | .string a, .string b => textLess a b
  | .objectPath a, .objectPath b => textLess a b
  | .signature a, .signature b => textLess a b
  | .unixFd a, .unixFd b => a < b
  | _, _ => false

/-- The two keys are the same one: the same value, or doubles that are equal numbers. -/
def Basic.sameKey : Basic → Basic → Bool
  | .double a, .double b => a = b || Binary64.equal a b
  | a, b => a = b

/-- The keys of class `t` that the order of the map compares. -/
def OrderedKey (t : BasicType) (k : Basic) : Prop := k.type = t ∧ k.isNaN = false

/-- What the order compares: the number, or the bytes of the text. -/
def Basic.rank : Basic → List Int
  | .byte v => [v.toNat]
  | .boolean v => [v.toNat]
  | .int16 v => [v.toInt]
  | .uint16 v => [v.toNat]
  | .int32 v => [v.toInt]
  | .uint32 v => [v.toNat]
  | .int64 v => [v.toInt]
  | .uint64 v => [v.toNat]
  | .double bits => [Binary64.rank bits]
  | .string s => s.map fun b => (b.toNat : Int)
  | .objectPath s => s.map fun b => (b.toNat : Int)
  | .signature s => s.map fun b => (b.toNat : Int)
  | .unixFd v => [v.toInt]

theorem singleton_lt_iff (x y : Int) : [x] < [y] ↔ x < y := by
  simp [List.cons_lt_cons_iff]

theorem textLess_iff (a b : Bytes) :
    textLess a b = true ↔
      (a.map fun c => (c.toNat : Int)) < (b.map fun c => (c.toNat : Int)) := by
  induction a generalizing b with
  | nil => cases b <;> simp [textLess]
  | cons x a ih =>
    cases b with
    | nil => simp [textLess]
    | cons y b =>
      have := ih b
      simp only [textLess, decide_eq_true_eq] at this
      simp [textLess, List.cons_lt_cons_iff, this]

theorem Basic.less_iff_rank {t : BasicType} {a b : Basic} (ha : OrderedKey t a)
    (hb : OrderedKey t b) : Basic.less a b = true ↔ a.rank < b.rank := by
  obtain ⟨rfl, hna⟩ := ha
  obtain ⟨hty, hnb⟩ := hb
  -- Only keys of the same class are left.
  cases a <;> cases b <;> simp only [Basic.type, reduceCtorEq] at hty
  all_goals simp only [Basic.less, Basic.rank, singleton_lt_iff, decide_eq_true_eq, textLess_iff]
  case double.double x y => exact Binary64.less_iff hna hnb
  case boolean.boolean x y => revert x y; decide
  all_goals
    simp only [UInt8.lt_iff_toNat_lt, UInt16.lt_iff_toNat_lt, UInt32.lt_iff_toNat_lt,
      UInt64.lt_iff_toNat_lt, Int16.lt_iff_toInt_lt, Int32.lt_iff_toInt_lt,
      Int64.lt_iff_toInt_lt, Int.ofNat_lt]

theorem map_toNat_injective {a b : Bytes}
    (h : (a.map fun c => (c.toNat : Int)) = b.map fun c => (c.toNat : Int)) : a = b := by
  refine List.map_injective_iff.mpr (fun x y hxy => ?_) h
  exact UInt8.toNat_inj.mp (Int.natCast_inj.mp hxy)

/-- Two ordered keys of one class have the same rank exactly when they are the same key. -/
theorem Basic.rank_eq_iff {t : BasicType} {a b : Basic} (ha : OrderedKey t a)
    (hb : OrderedKey t b) : a.rank = b.rank ↔ Basic.sameKey a b = true := by
  obtain ⟨rfl, hna⟩ := ha
  obtain ⟨hty, hnb⟩ := hb
  cases a <;> cases b <;> simp only [Basic.type, reduceCtorEq] at hty
  all_goals
    simp only [Basic.rank, Basic.sameKey, List.cons.injEq, and_true, decide_eq_true_eq,
      Int.natCast_inj, UInt8.toNat_inj, UInt16.toNat_inj, UInt32.toNat_inj, UInt64.toNat_inj,
      Int16.toInt_inj, Int32.toInt_inj, Int64.toInt_inj, Basic.byte.injEq, Basic.boolean.injEq,
      Basic.int16.injEq, Basic.uint16.injEq, Basic.int32.injEq, Basic.uint32.injEq,
      Basic.int64.injEq, Basic.uint64.injEq, Basic.unixFd.injEq, Basic.string.injEq,
      Basic.objectPath.injEq, Basic.signature.injEq]
  case double.double x y =>
    -- Equal words have equal ranks; the zeros have different words.
    simp only [Bool.or_eq_true, decide_eq_true_eq, Binary64.equal_iff hna hnb]
    exact ⟨.inr, fun h => h.elim (fun heq => heq ▸ rfl) id⟩
  case boolean.boolean x y => revert x y; decide
  all_goals exact ⟨map_toNat_injective, fun h => h ▸ rfl⟩

/-- The keys of one class other than NaN are strictly and weakly ordered. -/
theorem Basic.less_strictWeakOn (t : BasicType) :
    OrderedMap.StrictWeakOn Basic.less (OrderedKey t) :=
  .of_rank Basic.rank fun _ _ => Basic.less_iff_rank

/-- Equivalence under the order of the map is sameness of keys. -/
theorem Basic.equiv_iff_sameKey {t : BasicType} {a b : Basic} (ha : OrderedKey t a)
    (hb : OrderedKey t b) : OrderedMap.equiv Basic.less a b = true ↔ Basic.sameKey a b = true :=
  (OrderedMap.StrictWeakOn.equiv_iff_rank Basic.rank (fun _ _ => Basic.less_iff_rank) ha hb).trans
    (Basic.rank_eq_iff ha hb)

theorem Basic.unordered_of_isNaN {k : Basic} (h : k.isNaN = true) :
    OrderedMap.Unordered Basic.less k := by
  cases k <;> simp only [Basic.isNaN, Bool.false_eq_true] at h
  intro other
  cases other <;> simp [Basic.less, Binary64.less_of_isNaN_left _ h,
    Binary64.less_of_isNaN_right _ h]

theorem Basic.orderedKey_or_unordered {t : BasicType} {k : Basic} (h : k.type = t) :
    OrderedKey t k ∨ OrderedMap.Unordered Basic.less k := by
  cases hnan : k.isNaN with
  | false => exact .inl ⟨h, hnan⟩
  | true => exact .inr (Basic.unordered_of_isNaN hnan)

theorem Basic.less_irrefl (k : Basic) : Basic.less k k = false := by
  obtain hordered | hunordered := Basic.orderedKey_or_unordered (k := k) rfl
  · exact (Basic.less_strictWeakOn k.type).irrefl hordered
  · exact (hunordered k).1

@[simp] theorem Basic.sameKey_self (k : Basic) : Basic.sameKey k k = true := by
  cases k <;> simp [Basic.sameKey]

theorem Basic.sameKey_comm (a b : Basic) : Basic.sameKey a b = Basic.sameKey b a := by
  cases a <;> cases b <;> simp [Basic.sameKey, Binary64.equal_comm, eq_comm]

theorem Basic.sameKey_of_isNaN {k other : Basic} (h : k.isNaN = true) :
    Basic.sameKey k other = true ↔ k = other := by
  cases k <;> simp only [Basic.isNaN, Bool.false_eq_true] at h
  cases other <;> simp [Basic.sameKey, Binary64.equal_of_isNaN_left _ h]

end Ultrabus
