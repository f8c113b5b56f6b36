import Ultrabus.Lib.Hoare
import Ultrabus.Lib.Transition
import Ultrabus.Value.Factory

/-! # Operations on arrays

Every constructor and every member function of `dbus_array` that changes its elements, as
programs on the object: what they did before they throw stays done. -/

namespace Ultrabus

/-- The object of `dbus_array`; its elements are pointers. -/
structure ArrayObject where
  sig : Bytes
  items : List (Option DbusType)

namespace ArrayObject

abbrev Program := EStateM Exception ArrayObject

def elementSignature (a : ArrayObject) : Bytes := a.sig.tail

/-- `sig[1]`. -/
def elementCode (a : ArrayObject) : UInt8 := a.sig.tail.headD 0

/-- Every constructor starts from the signature `a`. -/
def initial : ArrayObject := ⟨[dbusTypeArray], []⟩

/-! ## Checks and steps that the functions share -/

def wrongSignature (esig : Bytes) (a : ArrayObject) : Exception :=
  .invalidArgument (text "Adding dbus_array element with wrong signature '" ++ esig ++
    text "', expected '" ++ a.elementSignature ++ text "'")

/-- `verify_element_signature (const char*)`. -/
def verifyElementSignature (esig : Bytes) : Program Unit := do
  let a ← get
  if a.elementSignature ≠ esig then throw (wrongSignature esig a)

/-- `verify_element_signature (int)`: compares one character. -/
def verifyElementTypeCode (type : BasicType) : Program Unit := do
  let a ← get
  if a.elementCode ≠ type.code then throw (wrongSignature [type.code] a)

/-- `verify_element_type_is_type_of_string`, and the string class that the following
    `switch` finds. -/
def verifyElementTypeIsTypeOfString : Program TextType := do
  let a ← get
  match TextType.ofCode? a.elementCode with
  | some type => return type
  | none =>
    throw (.invalidArgument
      (text "Adding string type to dbus_array with signature '" ++ a.elementSignature ++
        text "'"))

/-- `items.emplace_back`. -/
def emplaceBack (item : DbusType) : Program Unit :=
  modify fun a => { a with items := a.items ++ [some item] }

/-- `items.insert`. -/
def insertItem (idx : Nat) (item : DbusType) : Program Unit :=
  modify fun a => { a with items := a.items.insertIdx idx (some item) }

def setSig (sig : Bytes) : Program Unit := modify fun a => { a with sig := sig }

/-- `sig.push_back`. -/
def pushSig (code : UInt8) : Program Unit := modify fun a => { a with sig := a.sig ++ [code] }

def clear : Program Unit := modify fun a => { a with items := [] }

/-- A constructor call whose exception passes through. -/
def construct (result : Except Exception Basic) : Program DbusType :=
  match result with
  | .ok value => return .basic value
  | .error e => throw e

/-! ## Constructors -/

/-- The check on the signature of a new array. -/
def validateSignature : Program Unit := do
  let a ← get
  if !dbusSignatureValidateSingle (cStr a.sig) then
    throw (.invalidArgument (text "Invalid DBus Array signature"))

/-- `dbus_array (const char* element_signature)`. -/
def ofSignatureText (elementSignature : Bytes) : Program Unit := do
  modify fun a => { a with sig := a.sig ++ cStr elementSignature }
  validateSignature

/-- `dbus_array (const std::string& element_signature)`. -/
def ofSignatureString (elementSignature : Bytes) : Program Unit := do
  modify fun a => { a with sig := a.sig ++ elementSignature }
  validateSignature

/-- `dbus_array (int basic_type_code)`. -/
def ofTypeCode (basicTypeCode : Int) : Program Unit :=
  match BasicType.ofInt? basicTypeCode with
  | some type => pushSig type.code
  | none => throw (.invalidArgument (text "Invalid DBus Array signature"))

/-- `dbus_array (std::initializer_list<T>)`. -/
def ofBasics (ilist : CppList) : Program Unit := do
  pushSig ilist.type.code
  ilist.values.forM fun i => emplaceBack (.basic i)

/-- `dbus_array (std::initializer_list<const char*>)`. -/
def ofCStrings (ilist : List (Option Bytes)) : Program Unit := do
  pushSig BasicType.string.code
  ilist.forM fun i => do
    if i.isSome then emplaceBack (.basic (newString (.cString i)))

/-- `dbus_array (std::initializer_list<std::string>)`. -/
def ofStrings (ilist : List Bytes) : Program Unit := do
  pushSig BasicType.string.code
  ilist.forM fun i => emplaceBack (.basic (newString (.string i)))

/-- The string class that a constructor is given by its code. -/
def textTypeOfInt (typeOfString : Int) : Program TextType :=
  match (charOfInt? typeOfString).bind TextType.ofCode? with
  | some type => return type
  | none => throw (.invalidArgument (text "Not a valid DBus string type code"))

/-- `dbus_array (int type_of_string, std::initializer_list<const char*>)`.  The first
    character pushed is that of any code, but a code of another type throws. -/
def ofTypedCStrings (typeOfString : Int) (ilist : List (Option Bytes)) : Program Unit := do
  let type ← textTypeOfInt typeOfString
  pushSig type.type.code
  ilist.forM fun i => do
    if i.isSome then emplaceBack (← construct (newText type (.cString i)))

/-- `dbus_array (int type_of_string, std::initializer_list<const std::string>)`. -/
def ofTypedStrings (typeOfString : Int) (ilist : List Bytes) : Program Unit := do
  let type ← textTypeOfInt typeOfString
  ilist.forM fun i => do emplaceBack (← construct (newText type (.string i)))
  pushSig type.type.code

/-! ## Assignment from lists -/

/-- `operator= (std::initializer_list<T>)`. -/
def assignBasics (rhs : CppList) : Program Unit := do
  clear
  if rhs.values ≠ [] then
    setSig [dbusTypeArray]
    pushSig rhs.type.code
    rhs.values.forM fun i => emplaceBack (.basic i)

/-- `operator= (std::initializer_list<const char*>)` and
    `operator= (std::initializer_list<const std::string>)`. -/
def assignTexts (rhs : List TextArg) : Program Unit := do
  clear
  if !rhs.isEmpty then
    let a ← get
    match TextType.ofCode? a.elementCode with
    | some type => rhs.forM fun i => do emplaceBack (← construct (newText type i))
    | none =>
      setSig (text "as")
      rhs.forM fun i => do emplaceBack (← construct (newText .string i))

/-- `operator= (const dbus_type&)` on what is not an array. -/
def assignOther : Program Unit :=
  throw (.invalidArgument
    (text "Can't assign a dbus_type with different signature to a dbus_array"))

/-- `operator= (dbus_type&&)` on what is not an array. -/
def moveOther : Program Unit :=
  throw (.invalidArgument
    (text "Can't move a dbus_type with different signature to a dbus_array"))

/-! ## Appending -/

/-- `push_back (const dbus_type&)` and `push_back (dbus_type&&)`. -/
def pushBackItem (item : DbusType) : Program Unit := do
  verifyElementSignature (cStr item.signature)
  emplaceBack item

/-- `push_back (std::unique_ptr<dbus_type>&&)`: a null pointer is ignored. -/
def pushBackPointer : Option DbusType → Program Unit
  | none => return
  | some item => pushBackItem item

/-- `push_back (const T&)` and `push_back (T&&)`. -/
def pushBackValue (value : CppValue) : Program Unit := do
  verifyElementTypeCode value.value.type
  emplaceBack (.basic value.value)

/-- `push_back (const char*)`, `push_back (const std::string&)` and
    `push_back (std::string&&)`. -/
def pushBackText (value : TextArg) : Program Unit := do
  let type ← verifyElementTypeIsTypeOfString
  emplaceBack (← construct (newText type value))

/-! ## Inserting -/

/-- Insert what is made of the elements of a list, one behind the other. -/
def insertEach {α : Type} (create : α → Program DbusType) : Nat → List α → Program Unit
  | _, [] => return
  | idx, i :: rest => do
    insertItem idx (← create i)
    insertEach create (idx + 1) rest

/-- `insert (const_iterator, const dbus_type&)` and `insert (const_iterator, dbus_type&&)`. -/
def insertOne (pos : Nat) (item : DbusType) : Program Unit := do
  verifyElementSignature (cStr item.signature)
  insertItem pos item

/-- `insert (const_iterator, const T&)` and `insert (const_iterator, T&&)`. -/
def insertValue (pos : Nat) (value : CppValue) : Program Unit := do
  verifyElementTypeCode value.value.type
  insertItem pos (.basic value.value)

/-- `insert (const_iterator, const char*)`, `insert (const_iterator, const std::string&)` and
    `insert (const_iterator, std::string&&)`. -/
def insertText (pos : Nat) (value : TextArg) : Program Unit := do
  let type ← verifyElementTypeIsTypeOfString
  insertItem pos (← construct (newText type value))

/-- `insert (const_iterator, size_t count, const dbus_type&)`. -/
def insertCount (pos count : Nat) (item : DbusType) : Program Unit := do
  verifyElementSignature (cStr item.signature)
  (List.replicate count item).forM (insertItem pos)

/-- `insert (const_iterator, InputIt first, InputIt last)`, on the values in the range: only
    the first one is checked. -/
def insertRange (pos : Nat) (range : List DbusType) : Program Unit := do
  match range with
  | first :: _ => verifyElementSignature (cStr first.signature)
  | [] => pure ()
  insertEach (fun item => return item) pos range

/-- `insert (const_iterator, std::initializer_list<T>)`. -/
def insertBasics (pos : Nat) (ilist : CppList) : Program Unit := do
  verifyElementTypeCode ilist.type
  insertEach (fun i => return .basic i) pos ilist.values

/-- `insert (const_iterator, std::initializer_list<const char*>)` and
    `insert (const_iterator, std::initializer_list<const std::string>)`. -/
def insertTexts (pos : Nat) (ilist : List TextArg) : Program Unit := do
  let type ← verifyElementTypeIsTypeOfString
  insertEach (fun i => construct (newText type i)) pos ilist

/-! ## Removing -/

/-- `pop_back`: nothing happens to an empty array. -/
def popBack : Program Unit := modify fun a => { a with items := a.items.dropLast }

/-- `erase (const_iterator)`. -/
def erase (pos : Nat) : Program Unit := modify fun a => { a with items := a.items.eraseIdx pos }

/-- `erase (const_iterator, const_iterator)`. -/
def eraseRange (first last : Nat) : Program Unit :=
  modify fun a => { a with items := a.items.take first ++ a.items.drop last }

/-! ## The arrays that the decoder builds -/

def ofDbusArray (a : DbusArray) : ArrayObject := ⟨a.sig, a.items.map some⟩

theorem verifyElementSignature_run (esig : Bytes) (a : ArrayObject) :
    verifyElementSignature esig a =
      if a.elementSignature ≠ esig then .error (wrongSignature esig a) a else .ok () a := by
  by_cases h : a.elementSignature ≠ esig
  · rw [if_pos h]
    exact congrFun (if_pos h) a
  · rw [if_neg h]
    exact congrFun (if_neg h) a

/-- `push_back` of a pointer is `DbusArray.pushBack`, and leaves the array as it was where
    that throws. -/
theorem pushBackPointer_ofDbusArray (a : DbusArray) (item : Option DbusType) :
    pushBackPointer item (ofDbusArray a) =
      match a.pushBack item with
      | .ok b => .ok () (ofDbusArray b)
      | .error e => .error e (ofDbusArray a) := by
  cases item with
  | none => rfl
  | some item =>
    have hcheck := verifyElementSignature_run (cStr item.signature) (ofDbusArray a)
    rw [show (ofDbusArray a).elementSignature = a.elementSignature from rfl] at hcheck
    simp only [pushBackPointer, pushBackItem, DbusArray.pushBack,
      DbusArray.verifyElementSignature]
    by_cases h : a.elementSignature ≠ cStr item.signature
    · rw [if_pos h]
      rw [if_pos h] at hcheck
      exact EStateM.bind_of_error hcheck
    · rw [if_neg h]
      rw [if_neg h] at hcheck
      refine (EStateM.bind_of_ok hcheck).trans ?_
      show EStateM.Result.ok () _ = EStateM.Result.ok () (ofDbusArray _)
      simp only [ofDbusArray, List.map_append, List.map_cons, List.map_nil]

end ArrayObject

end Ultrabus
