import Ultrabus.Message.Append
import Ultrabus.Message.Json
import Ultrabus.Value.ArrayInvariant
import Ultrabus.Value.DictMap

/-! # Methods of the message bus

The functions of `connection` that call a method of the message bus, in their synchronous and
in their asynchronous form. -/

namespace Ultrabus.Bus

/-- `retvalue<T>`. -/
structure Retvalue (α : Type) where
  value : α
  errNum : Int
  errStr : Bytes

namespace Retvalue

/-- `retvalue (const T& val)`, or the default constructor with the default value. -/
def of {α : Type} (val : α) : Retvalue α := ⟨val, 0, []⟩

/-- `err (int e, const std::string& description)`. -/
def err {α : Type} (ret : Retvalue α) (e : Int) (description : Bytes) : Retvalue α :=
  { ret with errNum := e, errStr := description }

end Retvalue

/-! ## What is sent -/

def dbusServiceDbus : Bytes := text "org.freedesktop.DBus"
def dbusPathDbus : Bytes := text "/org/freedesktop/DBus"
def dbusInterfaceDbus : Bytes := text "org.freedesktop.DBus"

/-- A method call before it is sent; without a message when an argument has been refused. -/
structure Request where
  destination : Bytes
  path : Bytes
  iface : Bytes
  method : Bytes
  wantReply : Bool
  message : Option Message

/-- `message (destination, path, iface, method)`, on names that its check lets pass. -/
def Request.new (destination path iface method : Bytes) : Request where
  destination := destination
  path := path
  iface := iface
  method := method
  wantReply := true
  message := some ⟨some ⟨dbusMessageTypeMethodCall, []⟩⟩

def Request.appendArgs (msg : Request) (args : List Arg) : Request :=
  { msg with message := msg.message.bind fun message => message.appendArgs args }

/-- What a reply is made to, given a budget. -/
abbrev ReplyHandler (α : Type) := Nat → FullMessage → Exec Exception (Retvalue α)

/-- A synchronous function up to `send_and_wait`, and what it makes of the reply. -/
inductive Sync (α : Type) where
  | returns (result : Except Exception (Retvalue α))
  | sendAndWait (msg : Request) (result : ReplyHandler α)

/-- An asynchronous function up to `send`.  The callback, if there is one, is called with what
    the handler makes of the reply. -/
inductive Async (α : Type) where
  | returns (result : Except Exception Bool)
  | send (msg : Request) (callback : Option (ReplyHandler α))

/-! ## What is made of replies -/

/-- `error_msg`. -/
def errorMsg (m : FullMessage) : Bytes :=
  if m.isError then
    match m.message.body with
    | .basic (.string s) :: _ => s
    | _ => []
  else []

/-- The description of an error reply. -/
def replyError (reply : FullMessage) : Bytes := reply.errorName ++ text ": " ++ errorMsg reply

/-- The description of a reply that cannot be read. -/
def invalidReply (expected : Bytes) (reply : FullMessage) : Bytes :=
  text "Invalid DBus reply argument, expected '" ++ expected ++ text "', got '" ++
    reply.message.signature ++ text "'"

/-- The same for a basic result: the code is appended behind the text that was to hold it. -/
def invalidBasicReply (code : UInt8) (reply : FullMessage) : Bytes :=
  text "Invalid DBus reply argument, expected '%c', got '" ++ [code] ++
    reply.message.signature ++ text "'"

def syncCallMethodReplyWithVoid (msg : Request) : Sync Bool :=
  .sendAndWait msg fun _ reply =>
    let retval := Retvalue.of true
    if reply.isError then
      return { retval with value := false }.err (-1) (replyError reply)
    else return retval

def asyncCallMethodReplyWithVoid (msg : Request) (callback : Bool) : Async Bool :=
  if !callback then .send { msg with wantReply := false } none
  else
    .send msg (some fun _ reply =>
      let retval := Retvalue.of true
      if reply.isError then
        return { retval with value := false }.err (-1) (replyError reply)
      else return retval)

/-- The results `T` of `sync_call_method<T>` with the value that they start with. -/
def uint32 : CppValue := ⟨.uint32 0, rfl⟩
def boolean : CppValue := ⟨.boolean false, rfl⟩
def string : CppValue := .ofString []

def syncCallMethod (type : CppValue) (msg : Request) : Sync CppValue :=
  .sendAndWait msg fun fuel reply => do
    let retval := Retvalue.of type
    if reply.isError then return retval.err (-1) (replyError reply)
    else
      let args ← reply.message.getArgs fuel false (.cpp retval.value) []
      match args with
      | (true, [.cpp value]) => return { retval with value := value }
      | _ => return retval.err (-1) (invalidBasicReply type.value.type.code reply)

def asyncCallMethod (type : CppValue) (msg : Request) (callback : Bool) : Async CppValue :=
  if !callback then .send { msg with wantReply := false } none
  else
    .send msg (some fun fuel reply => do
      let retval := Retvalue.of type
      if reply.isError then return retval.err (-1) (replyError reply)
      else
        let args ← reply.message.getArgs fuel false (.cpp retval.value) []
        match args with
        | (true, [.cpp value]) => return { retval with value := value }
        | _ => return retval.err (-1) (invalidBasicReply type.value.type.code reply))

/-- `cast<dbus_string> ().get ()`: the other classes of texts are derived from
    `dbus_string`. -/
def castString : DbusType → Except Exception Bytes
  | .basic (.string s) | .basic (.objectPath s) | .basic (.signature s) => .ok s
  | _ => .error .badCast

/-- The set that is filled with the names. -/
def emplaceNames : List (Bytes × Unit) → List DbusType → Except Exception (List Bytes)
  | set, [] => .ok (set.map Prod.fst)
  | set, name :: names => do
    let s ← castString name
    emplaceNames (OrderedMap.emplace textLess s () set) names

/-- `handle_set_string_reply`; the variable starts as a `dbus_array ("s")`. -/
def handleSetStringReply : ReplyHandler (List Bytes) := fun fuel reply => do
  let retval := Retvalue.of []
  if reply.isError then return retval.err (-1) (replyError reply)
  else
    let args ← reply.message.getArgs fuel false (.dbus (.array (text "as") [])) []
    match args with
    | (true, [.dbus (.array _ names)]) =>
      let set ← .ofExcept (emplaceNames [] names)
      return { retval with value := set }
    | _ => return retval.err (-1) (invalidReply (text "as") reply)

/-- `handle_dict_str_variant_reply`; the result starts as a `dbus_dict<dbus_string>` of
    variants. -/
def handleDictStrVariantReply : ReplyHandler DbusType := fun fuel reply => do
  let retval := Retvalue.of (DbusType.dict .string (text "a{sv}") [])
  if reply.isError then return retval.err (-1) (replyError reply)
  else
    let args ← reply.message.getArgs fuel false (.dbus retval.value) []
    match args with
    | (true, [.dbus dict]) => return { retval with value := dict }
    | _ => return retval.err (-1) (invalidReply (text "a{sv}") reply)

/-! ## Early returns -/

/-- The connection as the functions see it: what `is_connected` returns, and what it returns
    when it is asked again for the description of the error. -/
structure Connection where
  isConnected : Bool
  isConnectedAgain : Bool
  dbusValidateBusName : Bytes → Bool

section Early

variable {α : Type} (c : Connection)

/-- The check on the connection and a name, with the result that is returned if it fails. -/
def checkName (name : Bytes) (ret : Except Exception (Retvalue α)) (invalid : Bytes)
    (call : Sync α) : Sync α :=
  if !c.isConnected || !c.dbusValidateBusName (cStr name) then
    .returns do
      let ret ← ret
      if !c.isConnectedAgain then return ret.err (-1) (text "Not connected")
      else return ret.err (-1) invalid
  else call

/-- The check on the connection alone. -/
def checkConnected (value : α) (call : Sync α) : Sync α :=
  if !c.isConnected then .returns (.ok ⟨value, -1, text "Not connected"⟩) else call

def checkNameAsync (name : Bytes) (call : Async α) : Async α :=
  if !c.isConnected || !c.dbusValidateBusName (cStr name) then .returns (.ok false) else call

def checkConnectedAsync (call : Async α) : Async α :=
  if !c.isConnected then .returns (.ok false) else call

end Early

/-! ## The synchronous functions -/

section Functions

variable (c : Connection)

def requestName (busName : Bytes) (flags : UInt32) : Sync CppValue :=
  checkName c busName (.ok (.of uint32)) (text "Invalid bus name") (syncCallMethod uint32
    ((Request.new dbusServiceDbus dbusPathDbus dbusInterfaceDbus (text "RequestName")).appendArgs
      [.cpp (.string busName), .cpp (.uint32 flags)]))

def releaseName (busName : Bytes) : Sync CppValue :=
  checkName c busName (.ok (.of uint32)) (text "Invalid bus name") (syncCallMethod uint32
    ((Request.new dbusServiceDbus dbusPathDbus dbusInterfaceDbus (text "ReleaseName")).appendArgs
      [.cpp (.string busName)]))

def listQueuedOwners (busName : Bytes) : Sync (List Bytes) :=
  checkName c busName (.ok (.of [])) (text "Invalid bus name") (.sendAndWait
    ((Request.new dbusServiceDbus dbusPathDbus dbusInterfaceDbus
      (text "ListQueuedOwners")).appendArgs [.cpp (.string busName)])
    handleSetStringReply)

def listNames : Sync (List Bytes) :=
  checkConnected c [] (.sendAndWait
    (.new dbusServiceDbus dbusPathDbus dbusInterfaceDbus (text "ListNames"))
    handleSetStringReply)

def listActivatableNames : Sync (List Bytes) :=
  checkConnected c [] (.sendAndWait
    (.new dbusServiceDbus dbusPathDbus dbusInterfaceDbus (text "ListActivatableNames"))
    handleSetStringReply)

def nameHasOwner (busName : Bytes) : Sync CppValue :=
  checkName c busName (.ok (.of boolean)) (text "Invalid bus name") (syncCallMethod boolean
    ((Request.new dbusServiceDbus dbusPathDbus dbusInterfaceDbus (text "NameHasOwner")).appendArgs
      [.cpp (.string busName)]))

def startServiceByName (service : Bytes) (flags : UInt32) : Sync CppValue :=
  checkName c service (.ok (.of uint32)) (text "Invalid service name") (syncCallMethod uint32
    ((Request.new dbusServiceDbus dbusPathDbus dbusInterfaceDbus
      (text "StartServiceByName")).appendArgs [.cpp (.string service), .cpp (.uint32 flags)]))

/-- The loop over the environment, which fills a `dbus_dict<dbus_string> (DBUS_TYPE_STRING)`. -/
def dictOf (env : List (Bytes × Bytes)) : Except Exception DbusType :=
  let program : DictObject.Program Unit := do
    DictObject.ofTypeCode BasicType.string.code.toNat
    env.forM fun entry => do
      let _ ← DictObject.setText (.string entry.1) (.string entry.2)
  match program.run (DictObject.initial .string) with
  | .ok _ dict => .ok dict.toDbusType
  | .error e _ => .error e

def updateActivationEnvironment (env : List (Bytes × Bytes)) : Sync Bool :=
  checkConnected c false
    (match dictOf env with
    | .ok dict => syncCallMethodReplyWithVoid
        ((Request.new dbusServiceDbus dbusPathDbus dbusInterfaceDbus
          (text "UpdateActivationEnvironment")).appendArgs [.dbusType dict])
    | .error e => .returns (.error e))

def getNameOwner (busName : Bytes) : Sync CppValue :=
  checkName c busName (.ok (.of string)) (text "Invalid bus name") (syncCallMethod string
    ((Request.new dbusServiceDbus dbusPathDbus dbusInterfaceDbus (text "GetNameOwner")).appendArgs
      [.cpp (.string busName)]))

def getConnectionUnixUser (service : Bytes) : Sync CppValue :=
  checkName c service (.ok (.of uint32)) (text "Invalid service name") (syncCallMethod uint32
    ((Request.new dbusServiceDbus dbusPathDbus dbusInterfaceDbus
      (text "GetConnectionUnixUser")).appendArgs [.cpp (.string service)]))

def getConnectionUnixProcessId (service : Bytes) : Sync CppValue :=
  checkName c service (.ok (.of uint32)) (text "Invalid service name") (syncCallMethod uint32
    ((Request.new dbusServiceDbus dbusPathDbus dbusInterfaceDbus
      (text "GetConnectionUnixProcessID")).appendArgs [.cpp (.string service)]))

/-- `retvalue<dbus_dict<dbus_string>> ret (0)`: the number is taken for the type code of the
    values. -/
def dictOfZero : Except Exception (Retvalue DbusType) :=
  match (DictObject.ofTypeCode 0).run (DictObject.initial .string) with
  | .ok _ dict => .ok (.of dict.toDbusType)
  | .error e _ => .error e

def getConnectionCredentials (service : Bytes) : Sync DbusType :=
  checkName c service dictOfZero (text "Invalid service name") (.sendAndWait
    ((Request.new dbusServiceDbus dbusPathDbus dbusInterfaceDbus
      (text "GetConnectionCredentials")).appendArgs [.cpp (.string service)])
    handleDictStrVariantReply)

def getId : Sync CppValue :=
  checkConnected c string (syncCallMethod string
    (.new dbusServiceDbus dbusPathDbus dbusInterfaceDbus (text "GetId")))

/-- The loop over the rules, which fills a `dbus_array ("s")`. -/
def arrayOf (rules : List Bytes) : Except Exception DbusType :=
  let program : ArrayObject.Program Unit := do
    ArrayObject.ofSignatureText (text "s")
    rules.forM fun rule => ArrayObject.pushBackText (.string rule)
  match program.run ArrayObject.initial with
  | .ok _ array => .ok array.toDbusType
  | .error e _ => .error e

def becomeMonitor (rules : List Bytes) : Sync Bool :=
  checkConnected c false
    (match arrayOf rules with
    | .ok array => syncCallMethodReplyWithVoid
        ((Request.new dbusServiceDbus dbusPathDbus (text "org.freedesktop.DBus.Monitoring")
          (text "BecomeMonitor")).appendArgs [.dbusType array, .cpp (.uint32 0)])
    | .error e => .returns (.error e))

/-! ## The asynchronous functions -/

def requestNameAsync (busName : Bytes) (flags : UInt32) (callback : Bool) : Async CppValue :=
  checkNameAsync c busName (asyncCallMethod uint32
    ((Request.new dbusServiceDbus dbusPathDbus dbusInterfaceDbus (text "RequestName")).appendArgs
      [.cpp (.string busName), .cpp (.uint32 flags)]) callback)

def releaseNameAsync (busName : Bytes) (callback : Bool) : Async CppValue :=
  checkNameAsync c busName (asyncCallMethod uint32
    ((Request.new dbusServiceDbus dbusPathDbus dbusInterfaceDbus (text "ReleaseName")).appendArgs
      [.cpp (.string busName)]) callback)

/-- The end of the functions with a set or a dict for a result. -/
def sendTo {α : Type} (handler : ReplyHandler α) (msg : Request) (callback : Bool) : Async α :=
  if !callback then .send { msg with wantReply := false } none
  else .send msg (some handler)

def listQueuedOwnersAsync (busName : Bytes) (callback : Bool) : Async (List Bytes) :=
  checkNameAsync c busName (sendTo handleSetStringReply
    ((Request.new dbusServiceDbus dbusPathDbus dbusInterfaceDbus
      (text "ListQueuedOwners")).appendArgs [.cpp (.string busName)]) callback)

def listNamesAsync (callback : Bool) : Async (List Bytes) :=
  checkConnectedAsync c (sendTo handleSetStringReply
    (.new dbusServiceDbus dbusPathDbus dbusInterfaceDbus (text "ListNames")) callback)

def listActivatableNamesAsync (callback : Bool) : Async (List Bytes) :=
  checkConnectedAsync c (sendTo handleSetStringReply
    (.new dbusServiceDbus dbusPathDbus dbusInterfaceDbus (text "ListActivatableNames")) callback)

def nameHasOwnerAsync (busName : Bytes) (callback : Bool) : Async CppValue :=
  checkNameAsync c busName (asyncCallMethod boolean
    ((Request.new dbusServiceDbus dbusPathDbus dbusInterfaceDbus (text "NameHasOwner")).appendArgs
      [.cpp (.string busName)]) callback)

def startServiceByNameAsync (service : Bytes) (flags : UInt32) (callback : Bool) :
    Async CppValue :=
  checkNameAsync c service (asyncCallMethod uint32
    ((Request.new dbusServiceDbus dbusPathDbus dbusInterfaceDbus
      (text "StartServiceByName")).appendArgs [.cpp (.string service), .cpp (.uint32 flags)])
    callback)

def updateActivationEnvironmentAsync (env : List (Bytes × Bytes)) (callback : Bool) :
    Async Bool :=
  checkConnectedAsync c
    (match dictOf env with
    | .ok dict => asyncCallMethodReplyWithVoid
        ((Request.new dbusServiceDbus dbusPathDbus dbusInterfaceDbus
          (text "UpdateActivationEnvironment")).appendArgs [.dbusType dict]) callback
    | .error e => .returns (.error e))

def getNameOwnerAsync (busName : Bytes) (callback : Bool) : Async CppValue :=
  checkNameAsync c busName (asyncCallMethod string
    ((Request.new dbusServiceDbus dbusPathDbus dbusInterfaceDbus (text "GetNameOwner")).appendArgs
      [.cpp (.string busName)]) callback)

def getConnectionUnixUserAsync (service : Bytes) (callback : Bool) : Async CppValue :=
  checkNameAsync c service (asyncCallMethod uint32
    ((Request.new dbusServiceDbus dbusPathDbus dbusInterfaceDbus
      (text "GetConnectionUnixUser")).appendArgs [.cpp (.string service)]) callback)

def getConnectionUnixProcessIdAsync (service : Bytes) (callback : Bool) : Async CppValue :=
  checkNameAsync c service (asyncCallMethod uint32
    ((Request.new dbusServiceDbus dbusPathDbus dbusInterfaceDbus
      (text "GetConnectionUnixProcessID")).appendArgs [.cpp (.string service)]) callback)

def getConnectionCredentialsAsync (service : Bytes) (callback : Bool) : Async DbusType :=
  checkNameAsync c service (sendTo handleDictStrVariantReply
    ((Request.new dbusServiceDbus dbusPathDbus dbusInterfaceDbus
      (text "GetConnectionCredentials")).appendArgs [.cpp (.string service)]) callback)

def getIdAsync (callback : Bool) : Async CppValue :=
  checkConnectedAsync c (asyncCallMethod string
    (.new dbusServiceDbus dbusPathDbus dbusInterfaceDbus (text "GetId")) callback)

def becomeMonitorAsync (rules : List Bytes) (callback : Bool) : Async Bool :=
  checkConnectedAsync c
    (match arrayOf rules with
    | .ok array => asyncCallMethodReplyWithVoid
        ((Request.new dbusServiceDbus dbusPathDbus dbusInterfaceDbus
          (text "BecomeMonitor")).appendArgs [.dbusType array, .cpp (.uint32 0)]) callback
    | .error e => .returns (.error e))

end Functions

/-! ## Both forms of a function -/

/-- What the functions return. -/
inductive Result where
  | uint32 | boolean | string | names | credentials | nothing
deriving DecidableEq

abbrev Result.Value : Result → Type
  | .uint32 | .boolean | .string => CppValue
  | .names => List Bytes
  | .credentials => DbusType
  | .nothing => Bool

/-- The functions that there are in both forms, with their arguments. -/
inductive Method where
  | requestName (busName : Bytes) (flags : UInt32)
  | releaseName (busName : Bytes)
  | listQueuedOwners (busName : Bytes)
  | listNames
  | listActivatableNames
  | nameHasOwner (busName : Bytes)
  | startServiceByName (service : Bytes) (flags : UInt32)
  | updateActivationEnvironment (env : List (Bytes × Bytes))
  | getNameOwner (busName : Bytes)
  | getConnectionUnixUser (service : Bytes)
  | getConnectionUnixProcessId (service : Bytes)
  | getConnectionCredentials (service : Bytes)
  | getId
  | becomeMonitor (rules : List Bytes)

namespace Method

def result : Method → Result
  | .requestName _ _ | .releaseName _ | .startServiceByName _ _ | .getConnectionUnixUser _
  | .getConnectionUnixProcessId _ => .uint32
  | .nameHasOwner _ => .boolean
  | .getNameOwner _ | .getId => .string
  | .listQueuedOwners _ | .listNames | .listActivatableNames => .names
  | .getConnectionCredentials _ => .credentials
  | .updateActivationEnvironment _ | .becomeMonitor _ => .nothing

def sync (c : Connection) : (m : Method) → Sync m.result.Value
  | .requestName busName flags => Bus.requestName c busName flags
  | .releaseName busName => Bus.releaseName c busName
  | .listQueuedOwners busName => Bus.listQueuedOwners c busName
  | .listNames => Bus.listNames c
  | .listActivatableNames => Bus.listActivatableNames c
  | .nameHasOwner busName => Bus.nameHasOwner c busName
  | .startServiceByName service flags => Bus.startServiceByName c service flags
  | .updateActivationEnvironment env => Bus.updateActivationEnvironment c env
  | .getNameOwner busName => Bus.getNameOwner c busName
  | .getConnectionUnixUser service => Bus.getConnectionUnixUser c service
  | .getConnectionUnixProcessId service => Bus.getConnectionUnixProcessId c service
  | .getConnectionCredentials service => Bus.getConnectionCredentials c service
  | .getId => Bus.getId c
  | .becomeMonitor rules => Bus.becomeMonitor c rules

def async (c : Connection) (callback : Bool) : (m : Method) → Async m.result.Value
  | .requestName busName flags => requestNameAsync c busName flags callback
  | .releaseName busName => releaseNameAsync c busName callback
  | .listQueuedOwners busName => listQueuedOwnersAsync c busName callback
  | .listNames => listNamesAsync c callback
  | .listActivatableNames => listActivatableNamesAsync c callback
  | .nameHasOwner busName => nameHasOwnerAsync c busName callback
  | .startServiceByName service flags => startServiceByNameAsync c service flags callback
  | .updateActivationEnvironment env => updateActivationEnvironmentAsync c env callback
  | .getNameOwner busName => getNameOwnerAsync c busName callback
  | .getConnectionUnixUser service => getConnectionUnixUserAsync c service callback
  | .getConnectionUnixProcessId service => getConnectionUnixProcessIdAsync c service callback
  | .getConnectionCredentials service => getConnectionCredentialsAsync c service callback
  | .getId => getIdAsync c callback
  | .becomeMonitor rules => becomeMonitorAsync c rules callback

end Method

/-- The same method is called with the same arguments. -/
structure Request.SameCall (msg msg' : Request) : Prop where
  destination : msg.destination = msg'.destination
  path : msg.path = msg'.path
  iface : msg.iface = msg'.iface
  method : msg.method = msg'.method
  body : msg.message.map Message.body = msg'.message.map Message.body

/-- Where both forms send something, they send the same, and the callback is given for every
    reply what the synchronous form returns for it. -/
def Agree {α : Type} (sync : Sync α) (async : Bool → Async α) : Prop :=
  ∀ callback msg result msg' handler, sync = .sendAndWait msg result →
    async callback = .send msg' handler →
    msg.SameCall msg' ∧ ∀ h, handler = some h → ∀ fuel reply, h fuel reply = result fuel reply

/-- Both forms of a function agree, whatever connections they are called on. -/
def Method.Agrees (m : Method) : Prop :=
  ∀ c c' : Connection, Agree (m.sync c) fun callback => m.async c' callback

theorem Request.SameCall.refl (msg : Request) : msg.SameCall msg := ⟨rfl, rfl, rfl, rfl, rfl⟩

section Pairs

variable {α : Type} {sync : Sync α} {async : Bool → Async α}

theorem agree_sendTo (handler : ReplyHandler α) (msg : Request) :
    Agree (.sendAndWait msg handler) (sendTo handler msg) := by
  intro callback msg₁ result msg' handler' hsync hasync
  obtain ⟨rfl, rfl⟩ := Sync.sendAndWait.inj hsync
  cases callback with
  | false =>
    obtain ⟨rfl, rfl⟩ := Async.send.inj hasync
    exact ⟨⟨rfl, rfl, rfl, rfl, rfl⟩, fun h hnone => by cases hnone⟩
  | true =>
    obtain ⟨rfl, rfl⟩ := Async.send.inj hasync
    refine ⟨.refl _, fun h hsome fuel reply => ?_⟩
    obtain rfl := Option.some.inj hsome
    rfl

theorem agree_callMethod (type : CppValue) (msg : Request) :
    Agree (syncCallMethod type msg) (asyncCallMethod type msg) :=
  agree_sendTo _ msg

theorem agree_callMethodReplyWithVoid (msg : Request) :
    Agree (syncCallMethodReplyWithVoid msg) (asyncCallMethodReplyWithVoid msg) :=
  agree_sendTo _ msg

theorem Agree.checkName (h : Agree sync async) (c c' : Connection) (name : Bytes)
    (ret : Except Exception (Retvalue α)) (invalid : Bytes) :
    Agree (checkName c name ret invalid sync) fun callback =>
      checkNameAsync c' name (async callback) := by
  intro callback msg result msg' handler hsync hasync
  unfold Bus.checkName at hsync
  unfold checkNameAsync at hasync
  split at hsync
  case isTrue => cases hsync
  case isFalse =>
    split at hasync
    case isTrue => cases hasync
    case isFalse => exact h callback msg result msg' handler hsync hasync

theorem Agree.checkConnected (h : Agree sync async) (c c' : Connection) (value : α) :
    Agree (checkConnected c value sync) fun callback =>
      checkConnectedAsync c' (async callback) := by
  intro callback msg result msg' handler hsync hasync
  unfold Bus.checkConnected at hsync
  unfold checkConnectedAsync at hasync
  split at hsync
  case isTrue => cases hsync
  case isFalse =>
    split at hasync
    case isTrue => cases hasync
    case isFalse => exact h callback msg result msg' handler hsync hasync

end Pairs

/-! ### The rules of a monitor -/

theorem pushBackText_run {a : ArrayObject} (h : a.elementCode = BasicType.string.code)
    (rule : Bytes) : ArrayObject.pushBackText (.string rule) a =
      .ok () { a with items := a.items ++ [some (.basic (.string rule))] } := by
  have hverify : ArrayObject.verifyElementTypeIsTypeOfString a = .ok .string a := by
    refine (EStateM.bind_of_ok rfl).trans ?_
    rw [h]
    rfl
  exact (EStateM.bind_of_ok hverify).trans rfl

theorem pushBackTexts_run (rules : List Bytes) {a : ArrayObject}
    (h : a.elementCode = BasicType.string.code) :
    ∃ a', (rules.forM fun rule => ArrayObject.pushBackText (.string rule)) a = .ok () a' := by
  induction rules generalizing a with
  | nil => exact ⟨a, rfl⟩
  | cons rule rules ih =>
    obtain ⟨a', ha'⟩ := ih (a := { a with items := a.items ++ [some (.basic (.string rule))] }) h
    exact ⟨a', (EStateM.bind_of_ok (pushBackText_run h rule)).trans ha'⟩

/-- Any texts can be the elements of an array of strings. -/
theorem exists_arrayOf (rules : List Bytes) : ∃ array, arrayOf rules = .ok array := by
  obtain ⟨a, ha⟩ := pushBackTexts_run rules (a := ⟨text "as", []⟩) rfl
  refine ⟨a.toDbusType, ?_⟩
  have hstart : ArrayObject.ofSignatureText (text "s") ArrayObject.initial =
      .ok () ⟨text "as", []⟩ := by
    have happend : [dbusTypeArray] ++ cStr (text "s") = text "as" := by decide
    have hcheck : ArrayObject.validateSignature ⟨text "as", []⟩ = .ok () ⟨text "as", []⟩ :=
      (EStateM.bind_of_ok rfl).trans (congrFun (if_neg (by decide)) _)
    have hset : ArrayObject.ofSignatureText (text "s") ArrayObject.initial =
        ArrayObject.validateSignature ⟨[dbusTypeArray] ++ cStr (text "s"), []⟩ :=
      EStateM.bind_of_ok rfl
    rw [hset, happend, hcheck]
  rw [arrayOf, EStateM.run, EStateM.bind_of_ok hstart, ha]

/-- The two forms of `become_monitor` call different interfaces. -/
theorem not_agrees_becomeMonitor (rules : List Bytes) : ¬ (Method.becomeMonitor rules).Agrees := by
  intro h
  obtain ⟨array, harray⟩ := exists_arrayOf rules
  let c : Connection := ⟨true, true, fun _ => true⟩
  have hsync : (Method.becomeMonitor rules).sync c = syncCallMethodReplyWithVoid
      ((Request.new dbusServiceDbus dbusPathDbus (text "org.freedesktop.DBus.Monitoring")
        (text "BecomeMonitor")).appendArgs [.dbusType array, .cpp (.uint32 0)]) := by
    show becomeMonitor c rules = _
    simp only [becomeMonitor, checkConnected, harray]
    rfl
  have hasync : (Method.becomeMonitor rules).async c false = asyncCallMethodReplyWithVoid
      ((Request.new dbusServiceDbus dbusPathDbus dbusInterfaceDbus
        (text "BecomeMonitor")).appendArgs [.dbusType array, .cpp (.uint32 0)]) false := by
    show becomeMonitorAsync c rules false = _
    simp only [becomeMonitorAsync, checkConnectedAsync, harray]
    rfl
  have hiface : text "org.freedesktop.DBus.Monitoring" = dbusInterfaceDbus :=
    (h c c false _ _ _ _ hsync hasync).1.iface
  exact absurd hiface (by decide)

/-- The forms of a function agree, except those of `become_monitor`. -/
theorem Method.agrees_iff (m : Method) : m.Agrees ↔ ∀ rules, m ≠ .becomeMonitor rules := by
  constructor
  · rintro h rules rfl
    exact not_agrees_becomeMonitor rules h
  · intro h c c'
    cases m with
    | becomeMonitor rules => exact absurd rfl (h rules)
    | listNames | listActivatableNames => exact (agree_sendTo _ _).checkConnected c c' _
    | getId => exact (agree_callMethod _ _).checkConnected c c' _
    | updateActivationEnvironment env =>
      refine Agree.checkConnected ?_ c c' _
      cases dictOf env with
      | ok dict => exact agree_callMethodReplyWithVoid _
      | error e => exact fun _ _ _ _ _ h => by cases h
    | listQueuedOwners _ | getConnectionCredentials _ =>
      exact (agree_sendTo _ _).checkName c c' _ _ _
    | _ => exact (agree_callMethod _ _).checkName c c' _ _ _

/-- A monitor without rules: the asynchronous form asks an interface that has no such method. -/
theorem becomeMonitor_not_agrees : ¬ (Method.becomeMonitor []).Agrees :=
  not_agrees_becomeMonitor []

end Ultrabus.Bus
