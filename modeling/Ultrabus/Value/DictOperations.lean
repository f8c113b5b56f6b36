import Ultrabus.Lib.Hoare
import Ultrabus.Lib.Transition
import Ultrabus.Value.Factory

/-! # Operations on dicts

Every constructor of `dbus_dict` and every member function that changes its entries or its
value type, as programs on the object: what they did before they throw stays done. -/

namespace Ultrabus

/-- The object of `dbus_dict<KeyType>`; the values of its entries are pointers. -/
structure DictObject where
  key : BasicType
  sig : Bytes
  items : List (Basic × Option DbusType)

namespace DictObject

abbrev Program := EStateM Exception DictObject

def valueSignature (d : DictObject) : Bytes := (d.sig.drop 3).take (d.sig.length - 4)

/-- `sig[3]`. -/
def valueCode (d : DictObject) : UInt8 := (d.sig.drop 3).headD 0

/-- Every constructor starts from the signature `a{`. -/
def initial (key : BasicType) : DictObject := ⟨key, [dbusTypeArray, dbusDictEntryBeginChar], []⟩

/-! ## Steps that the functions share -/

/-- `items[key] = value`. -/
def assignItem (key : Basic) (value : DbusType) : Program Unit :=
  modify fun d => { d with items := OrderedMap.assign Basic.less key (some value) d.items }

/-- What the constructors and `reset` append to `a{`. -/
def appendValueType (valueType : Bytes) : Program Unit :=
  modify fun d => { d with sig := d.sig ++ d.key.code :: (valueType ++ [dbusDictEntryEndChar]) }

def clear : Program Unit := modify fun d => { d with items := [] }

/-- `sig = "a{"`. -/
def restartSig : Program Unit :=
  modify fun d => { d with sig := [dbusTypeArray, dbusDictEntryBeginChar] }

/-- The code of a variant or of a basic type. -/
def variantOrBasic? (code : Int) : Option UInt8 :=
  if code = dbusTypeVariant.toNat then some dbusTypeVariant
  else (BasicType.ofInt? code).map BasicType.code

/-! ## Constructors -/

def invalidValueSignature : Exception :=
  .invalidArgument (text "Invalid DBus Dict value signature")

/-- `dbus_dict ()`. -/
def ofNothing : Program Unit := appendValueType [dbusTypeVariant]

/-- `dbus_dict (const char* value_signature)`. -/
def ofSignatureText : Option Bytes → Program Unit
  | none => throw invalidValueSignature
  | some valueSignature =>
    if !dbusSignatureValidateSingle (cStr valueSignature) then throw invalidValueSignature
    else appendValueType (cStr valueSignature)

/-- `dbus_dict (const std::string& value_signature)`. -/
def ofSignatureString (valueSignature : Bytes) : Program Unit :=
  if !dbusSignatureValidateSingle (cStr valueSignature) then throw invalidValueSignature
  else appendValueType valueSignature

/-- `dbus_dict (int variant_or_basic_type_code)`. -/
def ofTypeCode (variantOrBasicTypeCode : Int) : Program Unit :=
  match variantOrBasic? variantOrBasicTypeCode with
  | some code => appendValueType [code]
  | none => throw invalidValueSignature

/-- `emplace` a clone of every entry of another dict.  A null pointer cannot be cloned. -/
def emplaceClones (other : List (Basic × Option DbusType)) :
    Option (List (Basic × Option DbusType)) :=
  if other.all (·.2.isSome) then
    some (other.foldl (fun items i => OrderedMap.emplace Basic.less i.1 i.2 items) [])
  else none

/-- `operator= (const dbus_type&)` on what is not a dict. -/
def assignOther : Program Unit :=
  throw (.invalidArgument
    (text "Can't assign a dbus_type with different signature to a dbus_dict"))

/-- `operator= (dbus_type&&)` on what is not a dict. -/
def moveOther : Program Unit :=
  throw (.invalidArgument
    (text "Can't move a dbus_type with different signature to a dbus_dict"))

/-! ## Setting D-Bus values -/

/-- What `set` stores for a value: itself, or a variant with it, or nothing. -/
def stored? (d : DictObject) (value : DbusType) : Option DbusType :=
  if value.signature = d.valueSignature then some value
  else if d.valueSignature.head? = some dbusTypeVariant then
    some (DbusVariant.ofPointer (some value))
  else none

/-- `set (const key_type_t&, const dbus_type&)` and `set (const key_type_t&, dbus_type&&)`. -/
def setValue (key : Basic) (value : DbusType) : Program Bool := do
  let d ← get
  match d.stored? value with
  | some item =>
    assignItem key item
    return true
  | none => return false

/-- `set (const key_type_t&, std::unique_ptr<dbus_type>&&)`. -/
def setPointer (key : Basic) : Option DbusType → Program Bool
  | none => return false
  | some value => setValue key value

/-- The key that the functions taking any value for a key find in it. -/
def keyOf? (type : BasicType) : DbusType → Option Basic
  | .basic key => if key.type = type then some key else none
  | .variant (.basic key) => if key.type = type then some key else none
  | _ => none

/-- The overloads of `set` with `const dbus_type& key`. -/
def setAnyKey (key : DbusType) (set : Basic → Program Bool) : Program Bool := do
  let d ← get
  match keyOf? d.key key with
  | some key => set key
  | none => return false

/-! ## Setting C++ values -/

/-- `set (const key_type_t&, const CppType&)` for types other than `std::string`. -/
def setCpp (key : Basic) (value : CppValue) : Program Bool := do
  let d ← get
  if d.valueCode = dbusTypeVariant then
    assignItem key (DbusVariant.ofPointer (some (.basic value.value)))
    return true
  else if d.valueCode ≠ value.value.type.code then return false
  else
    assignItem key (.basic value.value)
    return true

/-- `set (const key_type_t&, const std::string&)` and
    `set (const key_type_t&, const char*)` on a text: what a constructor throws is caught
    before there is an entry. -/
def setText (key : Basic) (value : TextArg) : Program Bool := do
  let d ← get
  if d.valueCode = dbusTypeVariant then
    assignItem key (DbusVariant.ofPointer (some (.basic (newString value))))
    return true
  else
    match TextType.ofCode? d.valueCode with
    | some type =>
      match newText type value with
      | .ok item =>
        assignItem key (.basic item)
        return true
      | .error _ => return false
    | none => return false

/-- `set (const key_type_t&, const char*)`. -/
def setCString (key : Basic) : Option Bytes → Program Bool
  | none => return false
  | some value => setText key (.cString (some value))

/-! ## Access and reset -/

/-- A budget within which `create_dbus_type` returns on a complete type. -/
def creationFuel (sig : Bytes) : Nat := 2 * sig.length + 1

/-- `items[key]` for a key that has no entry, and the value that is created in its place.
    The entry is there, with a null pointer, when `create_dbus_type` throws. -/
def createItem (key : Basic) : Program Unit := do
  modify fun d => { d with items := OrderedMap.assign Basic.less key none d.items }
  let d ← get
  match createDbusType (creationFuel d.valueSignature) d.valueSignature with
  | .ok ptr =>
    modify fun d => { d with items := OrderedMap.assign Basic.less key ptr d.items }
  | .throw e => throw e
  | .timeout => return

/-- `operator[]`. -/
def subscript (key : Basic) : Program Unit := do
  let d ← get
  match OrderedMap.lookup Basic.less key d.items with
  | some (some _) => return
  | some none | none => createItem key

/-- `reset (const char*)`. -/
def resetText : Option Bytes → Program Bool
  | none => return false
  | some valueSignature => do
    if !dbusSignatureValidateSingle (cStr valueSignature) then return false
    else
      clear
      restartSig
      appendValueType (cStr valueSignature)
      return true

/-- `reset (const std::string&)`. -/
def resetString (valueSignature : Bytes) : Program Bool := resetText (some valueSignature)

/-- `reset (int)`: unlike the other overloads it leaves the entries in place. -/
def resetTypeCode (variantOrBasicTypeCode : Int) : Program Bool :=
  match variantOrBasic? variantOrBasicTypeCode with
  | none => return false
  | some code => do
    restartSig
    appendValueType [code]
    return true

/-! ## The dicts that the decoder builds -/

def ofDbusDict (d : DbusDict) : DictObject :=
  ⟨d.key, d.sig, d.items.map fun i => (i.1, some i.2)⟩

theorem assignItem_ofDbusDict (d : DbusDict) (key : Basic) (item : DbusType) :
    assignItem key item (ofDbusDict d) =
      .ok () (ofDbusDict { d with items := OrderedMap.assign Basic.less key item d.items }) := by
  show EStateM.Result.ok () _ = EStateM.Result.ok () _
  simp only [ofDbusDict, OrderedMap.assign_map]

/-- `set` of a pointer is `DbusDict.set`. -/
theorem setPointer_ofDbusDict (d : DbusDict) (key : Basic) (value : Option DbusType) :
    setPointer key value (ofDbusDict d) =
      .ok (d.set key value).2 (ofDbusDict (d.set key value).1) := by
  cases value with
  | none => rfl
  | some value =>
    have hstore : ∀ item : DbusType,
        (do assignItem key item; return true : Program Bool) (ofDbusDict d) = .ok true
          (ofDbusDict { d with items := OrderedMap.assign Basic.less key item d.items }) := by
      intro item
      exact EStateM.bind_of_ok (assignItem_ofDbusDict d key item)
    show (match (ofDbusDict d).stored? value with
      | some item => (do assignItem key item; return true : Program Bool)
      | none => return false) (ofDbusDict d) = _
    simp only [stored?, DbusDict.set]
    rw [show (ofDbusDict d).valueSignature = d.valueSignature from rfl]
    by_cases hsame : value.signature = d.valueSignature
    · rw [if_pos hsame, if_pos hsame]
      exact hstore value
    · rw [if_neg hsame, if_neg hsame]
      by_cases hvariant : d.valueSignature.head? = some dbusTypeVariant
      · rw [if_pos hvariant, if_pos hvariant]
        exact hstore _
      · rw [if_neg hvariant, if_neg hvariant]
        rfl

end DictObject

end Ultrabus
