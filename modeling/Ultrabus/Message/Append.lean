import Ultrabus.Message.Arguments

/-! # Appending message arguments

`message::append_args` and the functions it is made of.  The return values of the
iterator calls are not looked at; a refused call is `none` here, since nothing is
promised about the message afterwards. -/

namespace Ultrabus

mutual
/-- `message::append_dbus_type_arg`. -/
def appendDbusTypeArg : DbusType → AppendIter → Option AppendIter
  | .basic value, iter => iter.appendBasic value.toDBusBasicValue
  | .struct _ items, iter =>
    -- A struct without attributes is left out.
    if items.isEmpty then some iter
    else do
      let subIter ← AppendIter.openContainer .struct
      let subIter ← appendItems items subIter
      iter.closeContainer .struct subIter
  | .array sig items, iter => do
    let container := Container.array (cStr (DbusArray.elementSignature ⟨sig, items⟩))
    let subIter ← AppendIter.openContainer container
    let subIter ← appendItems items subIter
    iter.closeContainer container subIter
  | .dict key sig items, iter => do
    -- `append_dbus_dict_arg`
    let container := Container.array
      (cStr (dictEntrySignature key (DbusDict.valueSignature ⟨key, sig, items⟩)))
    let dictIter ← AppendIter.openContainer container
    let dictIter ← appendEntries items dictIter
    iter.closeContainer container dictIter
  | .variant value, iter => do
    let container := Container.variant (cStr value.signature)
    let subIter ← AppendIter.openContainer container
    let subIter ← appendDbusTypeArg value subIter
    iter.closeContainer container subIter

def appendItems : List DbusType → AppendIter → Option AppendIter
  | [], iter => some iter
  | item :: items, iter => do
    let iter ← appendDbusTypeArg item iter
    appendItems items iter

def appendEntries : List (Basic × DbusType) → AppendIter → Option AppendIter
  | [], iter => some iter
  | (key, value) :: entries, iter => do
    let keyValueIter ← AppendIter.openContainer .dictEntry
    let keyValueIter ← keyValueIter.appendBasic key.toDBusBasicValue
    let keyValueIter ← appendDbusTypeArg value keyValueIter
    let iter ← iter.closeContainer .dictEntry keyValueIter
    appendEntries entries iter
end

/-- The C++ types that stand for a basic value. -/
inductive CppBasic where
  | bool (value : Bool)
  | uint8 (value : UInt8)
  | int16 (value : Int16)
  | uint16 (value : UInt16)
  | int32 (value : Int32)
  | uint32 (value : UInt32)
  | int64 (value : Int64)
  | uint64 (value : UInt64)
  | double (bits : UInt64)
  | string (value : Bytes)
deriving DecidableEq, Repr

/-- The union and the type code with which a C++ value is appended. -/
def CppBasic.toDBusBasicValue : CppBasic → Basic
  | .bool v => .boolean v
  | .uint8 v => .byte v
  | .int16 v => .int16 v
  | .uint16 v => .uint16 v
  | .int32 v => .int32 v
  | .uint32 v => .uint32 v
  | .int64 v => .int64 v
  | .uint64 v => .uint64 v
  | .double v => .double v
  | .string v => .string (cStr v)

/-- An argument of `append_args`, one constructor for each overload. -/
inductive Arg where
  | dbusType (value : DbusType)
  | cString (value : Bytes)
  | cpp (value : CppBasic)

/-- `append_args_impl`; a C string ends at its first NUL. -/
def appendArgsImpl : List Arg → AppendIter → Option AppendIter
  | [], iter => some iter
  | .dbusType value :: args, iter => do
    let iter ← appendDbusTypeArg value iter
    appendArgsImpl args iter
  | .cString value :: args, iter => do
    let iter ← iter.appendBasic (.string (cStr value))
    appendArgsImpl args iter
  | .cpp value :: args, iter => do
    let iter ← iter.appendBasic value.toDBusBasicValue
    appendArgsImpl args iter

namespace Message

/-- `message::append_args`; without effect on a message that is not valid. -/
def appendArgs (m : Message) (args : List Arg) : Option Message :=
  if !m.isValid then some m
  else
    match m.ctx with
    | none => some m
    | some ctx => do
      let iter ← appendArgsImpl args (.init ctx.body)
      return { m with ctx := some { ctx with body := iter.written } }

def appendCalls (m : Message) : List (List Arg) → Option Message
  | [] => some m
  | args :: calls => do
    let m ← m.appendArgs args
    m.appendCalls calls

end Message

/-- The value an argument stands for: itself, or what its wrapper class holds. -/
def Arg.value : Arg → DbusType
  | .dbusType value => value
  | .cString value => .basic (.string (cStr value))
  | .cpp (.bool v) => .basic (.boolean v)
  | .cpp (.uint8 v) => .basic (.byte v)
  | .cpp (.int16 v) => .basic (.int16 v)
  | .cpp (.uint16 v) => .basic (.uint16 v)
  | .cpp (.int32 v) => .basic (.int32 v)
  | .cpp (.uint32 v) => .basic (.uint32 v)
  | .cpp (.int64 v) => .basic (.int64 v)
  | .cpp (.uint64 v) => .basic (.uint64 v)
  | .cpp (.double v) => .basic (.double v)
  | .cpp (.string v) => .basic (.string v)

end Ultrabus
