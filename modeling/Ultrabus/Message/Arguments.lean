import Ultrabus.Lib.Exec
import Ultrabus.Message.Iter

/-! # Reading message arguments

`message::arguments` and the functions `create_*_from_iter` it is made of.  Their loops
end at the first null pointer and two of them can repeat a step without advancing, so
every function and every turn of a loop spends one unit of a budget. -/

namespace Ultrabus

/-- `key->cast<KeyType> ()`. -/
def DbusType.castBasic (t : BasicType) : DbusType → Except Exception Basic
  | .basic value => if value.type = t then .ok value else .error .badCast
  | _ => .error .badCast

mutual
def createValueFromIter : Nat → ReadIter → Exec Exception (Option DbusType)
  | 0, _ => .timeout
  | fuel + 1, iter =>
    match iter with
    | .basic value :: _ => do
      let value ← .ofExcept (Basic.ofDBusBasicValue value)
      return some (.basic value)
    | .struct _ :: _ => createStructFromIter fuel iter
    | .array _ _ :: _ => createArrayFromIter fuel iter
    | .dictEntry _ :: _ => return none
    | .variant _ :: _ => createVariantFromIter fuel iter
    | [] => return none

def createStructFromIter : Nat → ReadIter → Exec Exception (Option DbusType)
  | 0, _ => .timeout
  | fuel + 1, iter => do
    let s ← structLoop fuel .empty iter.recurse
    return some s.toDbusType

def structLoop : Nat → DbusStruct → ReadIter → Exec Exception DbusStruct
  | 0, _, _ => .timeout
  | fuel + 1, s, subIter => do
    let attrib ← createValueFromIter fuel subIter
    match attrib with
    | none => return s
    | some attrib => structLoop fuel (s.add (some attrib)) subIter.next

def createDictFromIterImpl :
    Nat → BasicType → ReadIter → Bytes → Exec Exception (Option DbusType)
  | 0, _, _, _ => .timeout
  | fuel + 1, keyType, iter, valueSignature => do
    let dict ← .ofExcept (DbusDict.ofValueSignature keyType valueSignature)
    let dict ← dictLoop fuel dict iter.recurse
    return some dict.toDbusType

/-- The `continue` branches test the same entry again. -/
def dictLoop : Nat → DbusDict → ReadIter → Exec Exception DbusDict
  | 0, _, _ => .timeout
  | fuel + 1, dict, dictIter =>
    if dictIter.argTypeIsDictEntry then
      let entryIter := dictIter.recurse
      if !entryIter.argTypeIs dict.key then dictLoop fuel dict dictIter
      else do
        let key ← createValueFromIter fuel entryIter
        match key with
        | none => dictLoop fuel dict dictIter
        | some key =>
          let entryIter := entryIter.next
          if entryIter.argTypeIsInvalid then dictLoop fuel dict dictIter
          else do
            let value ← createValueFromIter fuel entryIter
            match value with
            | none => dictLoop fuel dict dictIter
            | some value =>
              let key ← .ofExcept (key.castBasic dict.key)
              dictLoop fuel (dict.set key (some value)).1 dictIter.next
    else return dict

def createDictFromIter : Nat → ReadIter → Exec Exception (Option DbusType)
  | 0, _ => .timeout
  | fuel + 1, iter =>
    let dictSignature := iter.getSignature
    let valueSignature := (dictSignature.drop 3).take (dictSignature.length - 4)
    match dictSignature[2]?.bind BasicType.ofCode? with
    | some keyType => createDictFromIterImpl fuel keyType iter valueSignature
    | none => return none

def createArrayFromIter : Nat → ReadIter → Exec Exception (Option DbusType)
  | 0, _ => .timeout
  | fuel + 1, iter =>
    if iter.elementTypeIsDictEntry then createDictFromIter fuel iter
    else do
      let array ← .ofExcept (DbusArray.ofElementSignature iter.getSignature.tail)
      let array ← arrayLoop fuel array iter.recurse
      return some array.toDbusType

def arrayLoop : Nat → DbusArray → ReadIter → Exec Exception DbusArray
  | 0, _, _ => .timeout
  | fuel + 1, array, subIter => do
    let element ← createValueFromIter fuel subIter
    match element with
    | none => return array
    | some element =>
      let array ← .ofExcept (array.pushBack (some element))
      arrayLoop fuel array subIter.next

def createVariantFromIter : Nat → ReadIter → Exec Exception (Option DbusType)
  | 0, _ => .timeout
  | fuel + 1, iter =>
    let subIter := iter.recurse
    if subIter.argTypeIsInvalid then return none
    else do
      let value ← createValueFromIter fuel subIter
      match value with
      | none => return none
      | some value => return some (DbusVariant.ofPointer (some value))
end

/-! ## Messages -/

def dbusMessageTypeInvalid : Nat := 0

/-- The part of a `DBusMessage` that arguments are written to and read from. -/
structure DBusMessage where
  type : Nat
  body : List Wire

/-- `ultrabus::message`: a handle that may be null. -/
structure Message where
  ctx : Option DBusMessage

namespace Message

def type (m : Message) : Nat :=
  match m.ctx with
  | none => dbusMessageTypeInvalid
  | some ctx => ctx.type

def isValid (m : Message) : Bool := m.type ≠ dbusMessageTypeInvalid

def body (m : Message) : List Wire :=
  match m.ctx with
  | none => []
  | some ctx => ctx.body

def signature (m : Message) : Bytes := Wire.signatures m.body

def argumentsLoop : Nat → List DbusType → ReadIter → Nat → Exec Exception (List DbusType)
  | 0, _, _, _ => .timeout
  | fuel + 1, args, iter, maxArgs => do
    let arg ← createValueFromIter fuel iter
    match arg with
    | none => return args
    | some arg =>
      if maxArgs = 1 then return args ++ [arg]
      else argumentsLoop fuel (args ++ [arg]) iter.next (maxArgs - 1)

/-- `message::arguments`; `dbus_message_iter_init` fails on an empty body. -/
def arguments (fuel : Nat) (m : Message) (maxArgs : Nat) : Exec Exception (List DbusType) :=
  if m.body.isEmpty then return [] else argumentsLoop fuel [] m.body maxArgs

end Message

end Ultrabus
