import Ultrabus.Lib.RefHeap
import Ultrabus.Lib.Transition
import Ultrabus.Message.Append
import Ultrabus.Message.Json
import Ultrabus.Proxy.Rules

/-! # Message objects

Objects of `ultrabus::message` as handles to the reference-counted messages of libdbus: all
constructors, assignments, the destructor, the setters and `append_args`, and where the library
takes messages from libdbus and gives it some.

No run uses a message that has been freed, every message lives as long as somebody refers to it,
and as long as every message from libdbus is wrapped by one object at a time, the objects behave
like values. -/

namespace Ultrabus.Handles

open Proxy (dbusValidateInterface dbusValidateMember)

/-- What a `DBusMessage` of libdbus holds. -/
abbrev Content := DBusMessage × Header

/-! ## New messages -/

def Content.empty (type : Nat) : Content :=
  (⟨type, []⟩, ⟨none, none, none, none, none, none, 0, 0⟩)

/-- `dbus_message_copy`: a replica that has not been sent. -/
def dbusMessageCopy (content : Content) : Content :=
  (content.1, { content.2 with serial := 0 })

/-- `dbus_message_new_method_call` and `dbus_message_new_signal`. -/
def dbusMessageNew (type : Nat) (destination : Option Bytes) (path : Bytes)
    (interface : Option Bytes) (member : Bytes) : Content :=
  (⟨type, []⟩, { (Content.empty type).2 with
    destination := destination.map cStr
    path := some (cStr path)
    interface := interface.map cStr
    member := some (cStr member) })

/-- `dbus_message_new_method_return`. -/
def dbusMessageNewMethodReturn (call : Content) : Content :=
  (⟨dbusMessageTypeMethodReturn, []⟩, { (Content.empty dbusMessageTypeMethodReturn).2 with
    destination := call.2.sender
    replySerial := call.2.serial })

/-- `dbus_message_new_error`. -/
def dbusMessageNewError (call : Content) (errorName errorMessage : Bytes) : Content :=
  (⟨dbusMessageTypeError, [.basic (.string (cStr errorMessage))]⟩,
    { (Content.empty dbusMessageTypeError).2 with
      destination := call.2.sender
      errorName := some (cStr errorName)
      replySerial := call.2.serial })

/-- The arguments of the constructors that make a message without another one. -/
inductive New where
  | default
  | methodCall (destination path iface method : Bytes)
  | signal (path iface name : Bytes)

def New.content : New → Content
  | .default => .empty dbusMessageTypeMethodCall
  | .methodCall destination path iface method =>
    dbusMessageNew dbusMessageTypeMethodCall (some destination) path
      (if iface.isEmpty then none else some iface) method
  | .signal path iface name => dbusMessageNew dbusMessageTypeSignal none path (some iface) name

/-- The field that a setter sets. -/
inductive Field where
  | destination | path | interface | name | errorName
deriving DecidableEq, Repr

/-- The setters of libdbus; the empty text stands for none. -/
def Field.write (field : Field) (value : Bytes) (content : Content) : Content :=
  let value := if value.isEmpty then none else some (cStr value)
  match field with
  | .destination => (content.1, { content.2 with destination := value })
  | .path => (content.1, { content.2 with path := value })
  | .interface => (content.1, { content.2 with interface := value })
  | .name => (content.1, { content.2 with member := value })
  | .errorName => (content.1, { content.2 with errorName := value })

/-- `append_args`; `left` is the body if libdbus refuses an argument, as it does for all arguments
    of a message that has been sent. -/
def Content.appendArgs (args : List Arg) (ok : Bool) (left : List Wire) (content : Content) :
    Content :=
  let m : Message := ⟨some content.1⟩
  if !m.isValid then content
  else
    match m.appendArgs args, ok with
    | some ⟨some ctx⟩, true => (ctx, content.2)
    | _, _ => ({ content.1 with body := left }, content.2)

/-- `dbus_connection_send` gives a serial to a message that has none. -/
def giveSerial (serial : UInt32) (content : Content) : Content :=
  (content.1, { content.2 with
    serial := if content.2.serial = 0 then serial else content.2.serial })

/-! ## States and steps -/

structure State where
  heap : RefHeap Content
  -- the `ctx` of every message object that lives
  objects : RefHeap.Variables
  -- the references of libdbus: queues, replies that have not been taken, what is dispatched
  libdbus : Multiset Nat

/-- All references to messages. -/
def State.holders (s : State) : Multiset Nat := s.libdbus + RefHeap.Variables.held s.objects

/-- `dbus_message_new...` and `dbus_message_copy` return where the new message is, or null. -/
abbrev Pointer := Option Nat

/-- One operation on the object `o`, or one of libdbus. -/
inductive Label where
  | construct (o : Nat) (new : New) (what : Bytes) (pointer : Pointer)
  | makeReply (o source : Nat) (setError : Bool) (errorName errorMessage : Bytes)
      (pointer : Pointer)
  -- the same for a pointer, with what the message holds that it leads to
  | replyTo (o : Nat) (msg : Option (Nat × Content)) (setError : Bool)
      (errorName errorMessage : Bytes) (pointer : Pointer)
  -- `message (DBusMessage*)`
  | wrap (o : Nat) (msg : Option (Nat × Content))
  | copyConstruct (o source : Nat) (pointer : Pointer)
  | moveConstruct (o source : Nat)
  | copyAssign (o source : Nat) (pointer : Pointer)
  | moveAssign (o source : Nat)
  | destroy (o : Nat)
  | set (o : Nat) (field : Field) (value : Bytes) (ok : Bool)
  | appendArgs (o : Nat) (args : List Arg) (ok : Bool) (left : List Wire)
  -- `connection::send`
  | send (o : Nat) (serial : UInt32)
  -- `connection::on_pending_call` up to the call of the callback
  | pendingCall (o : Nat) (reply : Nat × Content)
  -- libdbus has read a message, or has no more use for one
  | arrive (pointer : Nat) (content : Content)
  | release (pointer : Nat)

/-- After an operation, with the exception that it has thrown. -/
abbrev Result := State × Option Exception

section Operations

variable (dbusValidateBusName : Bytes → Bool)

/-- `msg_validate_msg_dest` and `msg_validate_dest`. -/
def New.valid : New → Bool
  | .default => true
  | .methodCall destination path iface method =>
    dbusValidateBusName (cStr destination) && dbusValidatePath (cStr path) &&
      (iface.isEmpty || dbusValidateInterface iface) && dbusValidateMember method
  | .signal path iface name =>
    dbusValidatePath (cStr path) && dbusValidateInterface iface && dbusValidateMember name

namespace State

variable (s : State)

/-- The end of a constructor that makes a message. -/
def emplace (o : Nat) (content : Content) : Pointer → Result
  | none => (s, some .badAlloc)
  | some r =>
    ({ s with heap := s.heap.alloc r content, objects := s.objects.insert o (some r) }, none)

def construct (o : Nat) (new : New) (what : Bytes) (pointer : Pointer) : Result :=
  if !new.valid dbusValidateBusName then (s, some (.invalidArgument what))
  else s.emplace o new.content pointer

/-- `message (const DBusMessage* msg, ...)`. -/
def makeReply (o : Nat) (msg : Option Nat) (setError : Bool) (errorName errorMessage : Bytes)
    (pointer : Pointer) : Option Result :=
  match msg with
  | none => some (s, some (.invalidArgument (text "Got nullptr argument")))
  | some msg => do
    let call ← s.heap.read msg
    if call.2.serial = 0 then
      return (s, some (.invalidArgument (text "Can't create reply from message with serial 0")))
    else if setError then
      return s.emplace o (dbusMessageNewError call errorName errorMessage) pointer
    else return s.emplace o (dbusMessageNewMethodReturn call) pointer

def wrap (o : Nat) (msg : Option Nat) : Option Result :=
  match msg with
  | none => some ({ s with objects := s.objects.insert o none }, none)
  | some msg => do
    let heap ← s.heap.ref msg
    return ({ s with heap := heap, objects := s.objects.insert o (some msg) }, none)

def copyConstruct (o : Nat) (msg : Option Nat) (pointer : Pointer) : Option Result :=
  match msg with
  | none => some ({ s with objects := s.objects.insert o none }, none)
  | some msg => do
    let content ← s.heap.read msg
    return s.emplace o (dbusMessageCopy content) pointer

def moveConstruct (o source : Nat) (msg : Option Nat) : Result :=
  ({ s with objects := (s.objects.insert o msg).insert source none }, none)

/-- `if (ctx) dbus_message_unref (ctx)`. -/
def unref (ctx : Option Nat) : Option State :=
  match ctx with
  | none => some s
  | some r => do
    let heap ← s.heap.unref r
    return { s with heap := heap }

def copyAssign (o source : Nat) (ctx msg : Option Nat) (pointer : Pointer) : Option Result := do
  if source ≠ o then
    match msg with
    | none =>
      let s ← unref { s with objects := s.objects.insert o none } ctx
      return (s, none)
    | some msg =>
      let content ← s.heap.read msg
      match pointer with
      | none => return (s, some .badAlloc)
      | some r =>
        let heap := s.heap.alloc r (dbusMessageCopy content)
        let s ← unref { s with heap := heap, objects := s.objects.insert o (some r) } ctx
        return (s, none)
  else return (s, none)

def moveAssign (o source : Nat) (ctx msg : Option Nat) : Option Result := do
  if source ≠ o then
    let s ← s.unref ctx
    return ({ s with objects := (s.objects.insert o msg).insert source none }, none)
  else return (s, none)

def destroy (o : Nat) (ctx : Option Nat) : Option Result := do
  let s ← s.unref ctx
  return ({ s with objects := s.objects.erase o }, none)

/-- The setters; the one for the name of an error leaves other messages as they are. -/
def set (ctx : Option Nat) (field : Field) (value : Bytes) (ok : Bool) : Option Result :=
  match ctx with
  | none => some (s, none)
  | some r => do
    let content ← s.heap.read r
    if field = .errorName ∧ content.1.type ≠ dbusMessageTypeError then return (s, none)
    else if !ok then return (s, some .badAlloc)
    else
      let heap ← s.heap.modify r (field.write value)
      return ({ s with heap := heap }, none)

def appendArgs (ctx : Option Nat) (args : List Arg) (ok : Bool) (left : List Wire) :
    Option Result :=
  match ctx with
  | none => some (s, none)
  | some r => do
    let heap ← s.heap.modify r (Content.appendArgs args ok left)
    return ({ s with heap := heap }, none)

/-- libdbus queues the message of the object. -/
def send (ctx : Option Nat) (serial : UInt32) : Option Result :=
  match ctx with
  | none => some (s, none)
  | some r => do
    let heap ← s.heap.ref r
    let heap ← heap.modify r (giveSerial serial)
    return ({ s with heap := heap, libdbus := r ::ₘ s.libdbus }, none)

/-- The reply is taken from its pending call and wrapped; the reference that libdbus has given
    away with it is dropped. -/
def pendingCall (o reply : Nat) : Option Result := do
  let s := { s with libdbus := s.libdbus.erase reply }
  let heap ← s.heap.ref reply
  let heap ← heap.unref reply
  return ({ s with heap := heap, objects := s.objects.insert o (some reply) }, none)

def release (r : Nat) : Option Result := do
  let s ← unref { s with libdbus := s.libdbus.erase r } (some r)
  return (s, none)

end State

/-- `none` where a message is used that has been freed. -/
def exec (s : State) : Label → Option Result
  | .construct o new what pointer => s.construct dbusValidateBusName o new what pointer
  | .makeReply o source setError errorName errorMessage pointer => do
    let msg ← s.objects.lookup source
    s.makeReply o msg setError errorName errorMessage pointer
  | .replyTo o msg setError errorName errorMessage pointer =>
    s.makeReply o (msg.map Prod.fst) setError errorName errorMessage pointer
  | .wrap o msg => s.wrap o (msg.map Prod.fst)
  | .copyConstruct o source pointer => do
    let msg ← s.objects.lookup source
    s.copyConstruct o msg pointer
  | .moveConstruct o source => do
    let msg ← s.objects.lookup source
    s.moveConstruct o source msg
  | .copyAssign o source pointer => do
    let ctx ← s.objects.lookup o
    let msg ← s.objects.lookup source
    s.copyAssign o source ctx msg pointer
  | .moveAssign o source => do
    let ctx ← s.objects.lookup o
    let msg ← s.objects.lookup source
    s.moveAssign o source ctx msg
  | .destroy o => do
    let ctx ← s.objects.lookup o
    s.destroy o ctx
  | .set o field value ok => do
    let ctx ← s.objects.lookup o
    s.set ctx field value ok
  | .appendArgs o args ok left => do
    let ctx ← s.objects.lookup o
    s.appendArgs ctx args ok left
  | .send o serial => do
    let ctx ← s.objects.lookup o
    s.send ctx serial
  | .pendingCall o reply => s.pendingCall o reply.1
  | .arrive r content =>
    some ({ s with heap := s.heap.alloc r content, libdbus := r ::ₘ s.libdbus }, none)
  | .release r => s.release r

/-- A pointer to a message that somebody holds, libdbus or an object whose `handle ()` it is. -/
def State.leads (s : State) (msg : Nat × Content) : Prop :=
  msg.1 ∈ s.holders ∧ s.heap.read msg.1 = some msg.2

/-- A pointer to a message of libdbus. -/
def State.gives (s : State) (msg : Nat × Content) : Prop :=
  msg.1 ∈ s.libdbus ∧ s.heap.read msg.1 = some msg.2

def State.isFree (s : State) (pointer : Pointer) : Prop := ∀ r ∈ pointer, s.heap r = none

/-- A constructor takes a place where no object lives, and the other operations take objects that
    live; new messages are put where none lives, pointers are to messages that live, and libdbus
    hands out messages that it holds. -/
def State.enabled (s : State) : Label → Prop
  | .construct o _ _ pointer => o ∉ s.objects ∧ s.isFree pointer
  | .makeReply o source _ _ _ pointer => o ∉ s.objects ∧ source ∈ s.objects ∧ s.isFree pointer
  | .replyTo o msg _ _ _ pointer =>
    o ∉ s.objects ∧ (∀ m ∈ msg, s.leads m) ∧ s.isFree pointer
  | .wrap o msg => o ∉ s.objects ∧ ∀ m ∈ msg, s.leads m
  | .copyConstruct o source pointer => o ∉ s.objects ∧ source ∈ s.objects ∧ s.isFree pointer
  | .moveConstruct o source => o ∉ s.objects ∧ source ∈ s.objects
  | .copyAssign o source pointer => o ∈ s.objects ∧ source ∈ s.objects ∧ s.isFree pointer
  | .moveAssign o source => o ∈ s.objects ∧ source ∈ s.objects
  | .destroy o | .set o _ _ _ | .appendArgs o _ _ _ | .send o _ => o ∈ s.objects
  | .pendingCall o reply => o ∉ s.objects ∧ s.gives reply
  | .arrive r _ => s.heap r = none
  | .release r => r ∈ s.libdbus

end Operations

end Ultrabus.Handles
