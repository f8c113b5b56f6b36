import Ultrabus.Value.Basic

/-! # D-Bus values

`DbusType` is a value of any class derived from `dbus_type`.  A container carries the
signature its object caches next to the values it holds; nothing in the type makes the
two agree.  `DbusType.Coherent` says when they do.

The objects of the container classes are `DbusArray`, `DbusStruct` and `DbusDict`, with
the member functions through which the decoder fills them. -/

namespace Ultrabus

/-- A value.  The signature of an array, a struct or a dict is the cached one.  A variant
    whose pointer is null holds an `int32` of 0 by the time anything looks at it (`get`),
    and is represented by that. -/
inductive DbusType where
  | basic (value : Basic)
  | array (sig : Bytes) (items : List DbusType)
  | struct (sig : Bytes) (items : List DbusType)
  | dict (key : BasicType) (sig : Bytes) (items : List (Basic × DbusType))
  | variant (value : DbusType)
deriving Repr

def DbusType.signature : DbusType → Bytes
  | .basic value => [value.type.code]
  | .array sig _ => sig
  | .struct sig _ => sig
  | .dict _ sig _ => sig
  | .variant _ => [dbusTypeVariant]

def DbusType.isVariant : DbusType → Bool
  | .variant _ => true
  | _ => false

def DbusType.signatures (values : List DbusType) : Bytes := values.flatMap DbusType.signature

@[simp] theorem DbusType.signatures_nil : DbusType.signatures [] = [] := rfl
@[simp] theorem DbusType.signatures_cons (v : DbusType) (vs : List DbusType) :
    DbusType.signatures (v :: vs) = v.signature ++ DbusType.signatures vs := rfl
theorem DbusType.signatures_append (vs ws : List DbusType) :
    DbusType.signatures (vs ++ ws) = DbusType.signatures vs ++ DbusType.signatures ws :=
  List.flatMap_append

/-! ## Arrays -/

structure DbusArray where
  sig : Bytes
  items : List DbusType

namespace DbusArray

/-- `dbus_array (const char* element_signature)`. -/
def ofElementSignature (elementSignature : Bytes) : Except Exception DbusArray :=
  if dbusSignatureValidateSingle (dbusTypeArray :: elementSignature) then
    .ok ⟨dbusTypeArray :: elementSignature, []⟩
  else .error (.invalidArgument (text "Invalid DBus Array signature"))

def elementSignature (a : DbusArray) : Bytes := a.sig.tail

def verifyElementSignature (a : DbusArray) (esig : Bytes) : Except Exception Unit :=
  if a.elementSignature ≠ esig then
    .error (.invalidArgument
      (text "Adding dbus_array element with wrong signature '" ++ esig ++
        text "', expected '" ++ a.elementSignature ++ text "'"))
  else .ok ()

/-- `push_back (std::unique_ptr<dbus_type>&&)`: a null pointer is ignored. -/
def pushBack (a : DbusArray) : Option DbusType → Except Exception DbusArray
  | none => .ok a
  | some item => do
    -- The signature passes through a `const char*`.
    a.verifyElementSignature (cStr item.signature)
    return { a with items := a.items ++ [item] }

def toDbusType (a : DbusArray) : DbusType := .array a.sig a.items

end DbusArray

/-! ## Structs -/

structure DbusStruct where
  sig : Bytes
  items : List DbusType

namespace DbusStruct

def empty : DbusStruct where
  sig := [dbusStructBeginChar, dbusStructEndChar]
  items := []

def addAttribSignature (s : DbusStruct) (newAttrib : DbusType) : Bytes :=
  s.sig.dropLast ++ newAttrib.signature ++ [dbusStructEndChar]

/-- `add (std::unique_ptr<dbus_type>&&)`: a null pointer is ignored. -/
def add (s : DbusStruct) : Option DbusType → DbusStruct
  | none => s
  | some item => ⟨s.addAttribSignature item, s.items ++ [item]⟩

def toDbusType (s : DbusStruct) : DbusType := .struct s.sig s.items

end DbusStruct

def structSignature (items : List DbusType) : Bytes :=
  dbusStructBeginChar :: (DbusType.signatures items ++ [dbusStructEndChar])

@[simp] theorem dropLast_structSignature (items : List DbusType) :
    (structSignature items).dropLast = dbusStructBeginChar :: DbusType.signatures items := by
  rw [structSignature, ← List.cons_append, List.dropLast_concat]

/-! ## Variants -/

/-- `dbus_variant (std::unique_ptr<dbus_type>&&)`: a variant is not nested in another. -/
def DbusVariant.ofPointer : Option DbusType → DbusType
  | none => .variant (.basic (.int32 0))
  | some (.variant value) => .variant value
  | some value => .variant value

@[simp] theorem DbusVariant.signature_ofPointer (p : Option DbusType) :
    (DbusVariant.ofPointer p).signature = [dbusTypeVariant] := by
  rcases p with - | (_ | _ | _ | _ | _) <;> rfl

/-! ## Dicts -/

structure DbusDict where
  key : BasicType
  sig : Bytes
  items : List (Basic × DbusType)

namespace DbusDict

/-- `dbus_dict<KeyType> (const std::string& value_signature)`. -/
def ofValueSignature (key : BasicType) (valueSignature : Bytes) : Except Exception DbusDict :=
  if dbusSignatureValidateSingle (cStr valueSignature) then
    .ok ⟨key, dictSignature key valueSignature, []⟩
  else .error (.invalidArgument (text "Invalid DBus Dict value signature"))

def valueSignature (d : DbusDict) : Bytes := (d.sig.drop 3).take (d.sig.length - 4)

/-- `set (const key_type_t&, std::unique_ptr<dbus_type>&&)`: the value is stored, or
    wrapped in a variant, or refused. -/
def set (d : DbusDict) (key : Basic) : Option DbusType → DbusDict × Bool
  | none => (d, false)
  | some value =>
    if value.signature = d.valueSignature then
      ({ d with items := OrderedMap.assign Basic.less key value d.items }, true)
    else if d.valueSignature.head? = some dbusTypeVariant then
      ({ d with items :=
          OrderedMap.assign Basic.less key (DbusVariant.ofPointer (some value)) d.items }, true)
    else (d, false)

def toDbusType (d : DbusDict) : DbusType := .dict d.key d.sig d.items

end DbusDict

@[simp] theorem valueSignature_dictSignature (key : BasicType) (value : Bytes)
    (items : List (Basic × DbusType)) :
    DbusDict.valueSignature ⟨key, dictSignature key value, items⟩ = value := by
  simp [DbusDict.valueSignature, dictSignature, dictEntrySignature]

/-! ## Coherent values -/

/-- The content of a string, an object path or a signature has no NUL byte. -/
def Basic.NulFree : Basic → Prop
  | .string s => (0 : UInt8) ∉ s
  | .objectPath s => (0 : UInt8) ∉ s
  | .signature s => (0 : UInt8) ∉ s
  | _ => True

instance (v : Basic) : Decidable v.NulFree :=
  match v with
  | .string s | .objectPath s | .signature s => inferInstanceAs (Decidable ((0 : UInt8) ∉ s))
  | .byte _ | .boolean _ | .int16 _ | .uint16 _ | .int32 _ | .uint32 _ | .int64 _ | .uint64 _
  | .double _ | .unixFd _ => isTrue trivial

/-- Values that a message can carry: contents that libdbus accepts, signatures that are
    one complete type and that of the contents at every level, dict keys of the class of
    the dict and in the order of the map, and no variant directly in a variant.  File
    descriptors and dicts keyed by doubles are left out. -/
inductive DbusType.Coherent : DbusType → Prop where
  | basic {value : Basic} : value.Valid → value.NulFree → value.type ≠ .unixFd →
      Coherent (.basic value)
  | array {element : Bytes} {items : List DbusType} :
      dbusSignatureValidateSingle (dbusTypeArray :: element) = true →
      element.head? ≠ some dbusDictEntryBeginChar →
      (∀ item ∈ items, item.signature = element) → (∀ item ∈ items, Coherent item) →
      Coherent (.array (dbusTypeArray :: element) items)
  | struct {items : List DbusType} :
      dbusSignatureValidateSingle (structSignature items) = true → items ≠ [] →
      (∀ item ∈ items, Coherent item) → Coherent (.struct (structSignature items) items)
  | dict {key : BasicType} {value : Bytes} {items : List (Basic × DbusType)} :
      dbusSignatureValidateSingle (dictSignature key value) = true →
      key ≠ .double → key ≠ .unixFd →
      (∀ item ∈ items, item.1.type = key ∧ item.1.Valid ∧ item.1.NulFree) →
      OrderedMap.Sorted Basic.less items →
      (∀ item ∈ items, item.2.signature = value) → (∀ item ∈ items, Coherent item.2) →
      Coherent (.dict key (dictSignature key value) items)
  | variant {value : DbusType} : value.isVariant = false → Coherent value →
      Coherent (.variant value)

theorem DbusType.Coherent.validateSingle_signature {v : DbusType} (h : v.Coherent) :
    dbusSignatureValidateSingle v.signature = true := by
  cases h with
  | basic _ _ _ => exact validateSingle_basic _
  | array hsig _ _ _ => exact hsig
  | struct hsig _ _ => exact hsig
  | dict hsig _ _ _ _ _ _ => exact hsig
  | variant _ _ => exact validateSingle_variant

end Ultrabus
