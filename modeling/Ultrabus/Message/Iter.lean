import Ultrabus.Value.Types

/-! # Message iterators of libdbus

A message body is a list of typed trees.  A reading iterator is the list of the values
still ahead of it at one level.  An appending iterator collects what is written at one
level and refuses (`none`) what does not match the signature its container was opened
with; it hands the tree of the container to its parent when it is closed. -/

namespace Ultrabus

/-- A value inside a message.  An array carries the signature of its elements, so that
    an empty one has a type; a dict is an array of dict entries.  A file descriptor is
    the number that the iterator hands out in one reading of the message. -/
inductive Wire where
  | basic (value : Basic)
  | struct (fields : List Wire)
  | array (elementSignature : Bytes) (elements : List Wire)
  | dictEntry (items : List Wire)
  | variant (items : List Wire)
deriving Repr

mutual
def Wire.signature : Wire → Bytes
  | .basic value => [value.type.code]
  | .struct fields => dbusStructBeginChar :: (Wire.signatures fields ++ [dbusStructEndChar])
  | .array element _ => dbusTypeArray :: element
  | .dictEntry items =>
    dbusDictEntryBeginChar :: (Wire.signatures items ++ [dbusDictEntryEndChar])
  | .variant _ => [dbusTypeVariant]

def Wire.signatures : List Wire → Bytes
  | [] => []
  | w :: ws => w.signature ++ Wire.signatures ws
end

def Wire.entry (e : Basic × Wire) : Wire := .dictEntry [.basic e.1, e.2]

def Wire.isDictEntry : Wire → Bool
  | .dictEntry _ => true
  | _ => false

@[simp] theorem Wire.signature_entry (e : Basic × Wire) :
    (Wire.entry e).signature = dictEntrySignature e.1.type e.2.signature := by
  simp [Wire.entry, Wire.signature, Wire.signatures, dictEntrySignature]

/-! ## Reading -/

abbrev ReadIter := List Wire

namespace ReadIter

/-- `dbus_message_iter_next`: a no-op at the end. -/
def next (iter : ReadIter) : ReadIter := iter.tail

def recurse : ReadIter → ReadIter
  | .struct fields :: _ => fields
  | .array _ elements :: _ => elements
  | .dictEntry items :: _ => items
  | .variant items :: _ => items
  | _ => []

/-- `dbus_message_iter_get_signature`: the signature of the value ahead. -/
def getSignature : ReadIter → Bytes
  | w :: _ => w.signature
  | [] => []

/-- `dbus_message_iter_get_element_type (iter) == DBUS_TYPE_DICT_ENTRY`. -/
def elementTypeIsDictEntry : ReadIter → Bool
  | .array element _ :: _ => element.head? = some dbusDictEntryBeginChar
  | _ => false

/-- `dbus_message_iter_get_arg_type (iter) == DBUS_TYPE_DICT_ENTRY`. -/
def argTypeIsDictEntry : ReadIter → Bool
  | w :: _ => w.isDictEntry
  | [] => false

/-- `dbus_message_iter_get_arg_type (iter) == DBUS_TYPE_INVALID`. -/
def argTypeIsInvalid (iter : ReadIter) : Bool := iter.isEmpty

/-- `dbus_message_iter_get_arg_type (iter) == t`. -/
def argTypeIs (t : BasicType) : ReadIter → Bool
  | .basic value :: _ => value.type = t
  | _ => false

end ReadIter

/-! ## Appending -/

/-- What an appending iterator lets in: anything at the top of a message and in a struct
    or a dict entry, values of the declared signature in an array, one value of the
    declared signature in a variant. -/
inductive Slot where
  | any
  | elements (signature : Bytes)
  | single (signature : Bytes)
deriving DecidableEq, Repr

structure AppendIter where
  slot : Slot
  written : List Wire

/-- A container as it is opened: its type and the signature it is declared with. -/
inductive Container where
  | struct
  | dictEntry
  | array (signature : Bytes)
  | variant (signature : Bytes)

namespace AppendIter

/-- `dbus_message_iter_init_append` on a message with the given body. -/
def init (body : List Wire) : AppendIter := ⟨.any, body⟩

def accepts (iter : AppendIter) (w : Wire) : Bool :=
  match iter.slot with
  | .any => !w.isDictEntry
  | .elements signature => w.signature = signature
  | .single signature => iter.written.isEmpty && w.signature = signature

def put (iter : AppendIter) (w : Wire) : Option AppendIter :=
  if iter.accepts w then some { iter with written := iter.written ++ [w] } else none

/-- `dbus_message_iter_append_basic`: the content of a string type is checked. -/
def appendBasic (iter : AppendIter) (value : Basic) : Option AppendIter :=
  if value.Valid then iter.put (.basic value) else none

/-- `dbus_message_iter_open_container`. -/
def openContainer : Container → Option AppendIter
  | .struct => some ⟨.any, []⟩
  | .dictEntry => some ⟨.any, []⟩
  | .array signature =>
    if dbusSignatureValidateSingle (dbusTypeArray :: signature) then some ⟨.elements signature, []⟩
    else none
  | .variant signature =>
    if dbusSignatureValidateSingle signature then some ⟨.single signature, []⟩ else none

/-- `dbus_message_iter_close_container`: by then a struct has a field, a dict entry its
    key and value, and a variant its value. -/
def closeContainer (iter : AppendIter) (container : Container) (sub : AppendIter) :
    Option AppendIter :=
  match container, sub.written with
  | .struct, field :: fields => iter.put (.struct (field :: fields))
  | .dictEntry, [key, value] => iter.put (.dictEntry [key, value])
  | .array signature, elements => iter.put (.array signature elements)
  | .variant _, [value] => iter.put (.variant [value])
  | _, _ => none

end AppendIter

/-! ## Well-formed trees -/

/-- The trees that libdbus validates.  Every signature declared in one is a complete type
    within the limits, elements have the declared signature, dict entries stand in
    arrays of dict entries only and hold a basic key and a value. -/
inductive Wire.Valid : Wire → Prop where
  | basic {value : Basic} : value.Valid → Valid (.basic value)
  | struct {fields : List Wire} : fields ≠ [] → (∀ w ∈ fields, Valid w) → Valid (.struct fields)
  | array {element : Bytes} {elements : List Wire} :
      dbusSignatureValidateSingle (dbusTypeArray :: element) = true →
      element.head? ≠ some dbusDictEntryBeginChar →
      (∀ w ∈ elements, w.signature = element) → (∀ w ∈ elements, Valid w) →
      Valid (.array element elements)
  | dict {key : BasicType} {value : Bytes} {entries : List (Basic × Wire)} :
      dbusSignatureValidateSingle (dictSignature key value) = true →
      (∀ e ∈ entries, e.1.type = key ∧ e.1.Valid) →
      (∀ e ∈ entries, e.2.signature = value) → (∀ e ∈ entries, Valid e.2) →
      Valid (.array (dictEntrySignature key value) (entries.map Wire.entry))
  | variant {w : Wire} : dbusSignatureValidateSingle w.signature = true → Valid w →
      Valid (.variant [w])

theorem Wire.Valid.isDictEntry {w : Wire} (h : w.Valid) : w.isDictEntry = false := by
  cases h <;> rfl

end Ultrabus
