import Ultrabus.Connection.BusReplies
import Ultrabus.Interfaces.TextDicts
import Ultrabus.Message.RoundTrip
import Ultrabus.Proxy.Results

/-! # Properties

How `org_freedesktop_DBus_Properties` and `object_proxy` get and set the properties of an object.
What a call of `set` sends as the value is read back unchanged, by either class, from a reply that
gives it as the value of a `Get` or among the properties of a `GetAll`. -/

namespace Ultrabus.Interfaces

open Exec (Settles)
open Bus (Retvalue Request Sync Async ReplyHandler replyError invalidReply sendTo)
open Proxy (dbusInterfaceProperties dbusValidateInterface)
open Results (ObjectProxy PropertyValue Program setRequest replyResult)

variable {dbusValidateBusName : Bytes → Bool}

/-! ## Requests and replies -/

def getRequest (destination path interface propertyName : Bytes) : Request :=
  (Request.new destination path dbusInterfaceProperties (text "Get")).appendArgs
    [.cpp (.string interface), .cpp (.string propertyName)]

def getAllRequest (destination path interface : Bytes) : Request :=
  (Request.new destination path dbusInterfaceProperties (text "GetAll")).appendArgs
    [.cpp (.string interface)]

/-- The variable is that of the result, a `dbus_variant` made by its default constructor. -/
def handleGetReply : ReplyHandler DbusType := fun fuel reply => do
  let ret := Retvalue.of DbusVariant.default
  if reply.isError then return ret.err (-1) (replyError reply)
  else
    let args ← reply.message.getArgs fuel false (.dbus ret.value) []
    match args with
    | (true, [.dbus value]) => return { ret with value := value }
    | _ => return ret.err (-1) (invalidReply (text "v") reply)

/-- The variable is that of the result, a `dbus_string_dict (DBUS_TYPE_VARIANT)`. -/
def handleGetAllReply : ReplyHandler DbusType := fun fuel reply => do
  let ret := Retvalue.of (DbusType.dict .string (text "a{sv}") [])
  if reply.isError then return ret.err (-1) (replyError reply)
  else
    let args ← reply.message.getArgs fuel true (.dbus ret.value) []
    match args with
    | (true, [.dbus value]) => return { ret with value := value }
    | _ => return ret.err (-1) (invalidReply (text "a{sv}") reply)

def handleSetReply : ReplyHandler Bool := fun _ reply => return replyResult (Retvalue.of true) reply

/-! ## The two classes -/

/-- An object whose properties are read and written: named in the call of
    `org_freedesktop_DBus_Properties`, or that of a proxy. -/
inductive Client (dbusValidateBusName : Bytes → Bool) where
  | properties (busName opath : Bytes)
  | proxy (p : ObjectProxy dbusValidateBusName)

namespace Client

def destination : Client dbusValidateBusName → Bytes
  | .properties busName _ => busName
  | .proxy p => p.target

def path : Client dbusValidateBusName → Bytes
  | .properties _ opath => opath
  | .proxy p => p.opath

/-- What the checks in front of a call object to. -/
def refusal (interface : Bytes) : Client dbusValidateBusName → Option Bytes
  | .properties busName opath =>
    if !dbusValidateBusName (cStr busName) then some (text "Invalid bus name")
    else if !dbusValidatePath (cStr opath) then some (text "Invalid object path")
    else if !dbusValidateInterface interface then some (text "Invalid interface name")
    else none
  | .proxy _ =>
    if interface = [] || !dbusValidateInterface interface then some (text "Invalid interface name")
    else none

variable {α : Type}

def call (client : Client dbusValidateBusName) (interface : Bytes) (start : α) (msg : Request)
    (handler : ReplyHandler α) : Sync α :=
  match client.refusal interface with
  | some what => .returns (.ok ((Retvalue.of start).err (-1) what))
  | none => .sendAndWait msg handler

def callAsync (client : Client dbusValidateBusName) (interface : Bytes) (msg : Request)
    (handler : ReplyHandler α) (callback : Bool) : Async α :=
  if (client.refusal interface).isSome then .returns (.ok false) else sendTo handler msg callback

def get (client : Client dbusValidateBusName) (interface propertyName : Bytes) : Sync DbusType :=
  client.call interface DbusVariant.default
    (getRequest client.destination client.path interface propertyName) handleGetReply

def getAsync (client : Client dbusValidateBusName) (interface propertyName : Bytes) :
    Bool → Async DbusType :=
  client.callAsync interface (getRequest client.destination client.path interface propertyName)
    handleGetReply

def getAll (client : Client dbusValidateBusName) (interface : Bytes) : Sync DbusType :=
  client.call interface (.dict .string (text "a{sv}") [])
    (getAllRequest client.destination client.path interface) handleGetAllReply

def getAllAsync (client : Client dbusValidateBusName) (interface : Bytes) : Bool → Async DbusType :=
  client.callAsync interface (getAllRequest client.destination client.path interface)
    handleGetAllReply

/-- The overloads of `org_freedesktop_DBus_Properties::set` or of
    `object_proxy::set_iface_property`. -/
def set {κ : Type} (client : Client dbusValidateBusName) (interface propertyName : Bytes)
    (value : PropertyValue) (timeout : Int) : Program κ (Retvalue Bool) :=
  match client with
  | .properties busName opath =>
    Results.set dbusValidateBusName busName opath interface propertyName value timeout
  | .proxy p => Results.setIfaceProperty p interface propertyName value timeout

def setAsync (client : Client dbusValidateBusName) (interface propertyName : Bytes)
    (value : DbusType) : Bool → Async Bool :=
  client.callAsync interface
    (setRequest client.destination client.path interface propertyName value) handleSetReply

end Client

section Functions

variable (dbusValidateBusName)

/-- `org_freedesktop_DBus_Properties::get`. -/
def get (busName opath interfaceName propertyName : Bytes) : Sync DbusType :=
  (Client.properties busName opath : Client dbusValidateBusName).get interfaceName propertyName

def getAsync (busName opath interfaceName propertyName : Bytes) : Bool → Async DbusType :=
  (Client.properties busName opath : Client dbusValidateBusName).getAsync interfaceName propertyName

def getAll (busName opath interfaceName : Bytes) : Sync DbusType :=
  (Client.properties busName opath : Client dbusValidateBusName).getAll interfaceName

def getAllAsync (busName opath interfaceName : Bytes) : Bool → Async DbusType :=
  (Client.properties busName opath : Client dbusValidateBusName).getAllAsync interfaceName

def setAsync (busName opath interfaceName propertyName : Bytes) (value : DbusType) :
    Bool → Async Bool :=
  (Client.properties busName opath : Client dbusValidateBusName).setAsync interfaceName
    propertyName value

variable {dbusValidateBusName} (p : ObjectProxy dbusValidateBusName)

/-- `object_proxy::get_iface_property`. -/
def getIfaceProperty (interface propertyName : Bytes) : Sync DbusType :=
  (Client.proxy p).get interface propertyName

def getIfacePropertyAsync (interface propertyName : Bytes) : Bool → Async DbusType :=
  (Client.proxy p).getAsync interface propertyName

def getAllIfaceProperties (interface : Bytes) : Sync DbusType := (Client.proxy p).getAll interface

def getAllIfacePropertiesAsync (interface : Bytes) : Bool → Async DbusType :=
  (Client.proxy p).getAllAsync interface

def setIfacePropertyAsync (interface propertyName : Bytes) (value : DbusType) : Bool → Async Bool :=
  (Client.proxy p).setAsync interface propertyName value

end Functions

/-- `get_iface_property (interface, property_name, T& value)` for a C++ type; none where it
    returns `false`. -/
def takeCpp (result : Retvalue DbusType) (value : CppValue) : Option CppValue :=
  if result.errNum ≠ 0 then none
  else
    match result.value with
    | .variant (.basic prop) => getNextMessageArgument [.basic prop] value
    | _ => none

/-- The same for a class derived from `dbus_type`. -/
def takeDbus (result : Retvalue DbusType) (value : DbusType) :
    Except Exception (Option DbusType) :=
  if result.errNum ≠ 0 then .ok none
  else
    match value, result.value with
    | .variant _, all => .ok (some all)
    | value, .variant prop =>
      if prop.signature ≠ value.signature then .ok none else (value.moveAssign prop).map some
    | _, _ => .ok none

/-! ## Round trip -/

/-- A text that is sent as it is. -/
def Sendable (s : Bytes) : Prop := (DbusType.basic (.string s)).Coherent

/-- Both forms send the same message, and the callback is given what the synchronous form makes of
    the reply. -/
def SendsSame {α : Type} (sync : Sync α) (async : Bool → Async α) : Prop :=
  ∃ msg handler, sync = .sendAndWait msg handler ∧ async true = .send msg (some handler) ∧
    async false = .send { msg with wantReply := false } none

/-- The tree is read back as the value: from a reply to `Get`, also in a variable of its type, and
    from a reply to `GetAll` that has it under the name. -/
structure ReadBack (client : Client dbusValidateBusName) (interface propertyName : Bytes) (w : Wire)
    (v : DbusType) : Prop where
  get : ∀ reply : FullMessage, reply.isError = false → reply.message.body.head? = some w →
    Settles (fun fuel => (client.get interface propertyName).run fuel reply)
      (.ok ⟨.variant v, 0, []⟩)
  typed : ∀ target : DbusType, target.ClassFits → target.isEntryArray = false →
    target.signature = v.signature → takeDbus ⟨.variant v, 0, []⟩ target = .ok (some v)
  cpp : ∀ value target : CppValue, v = .basic value.value → value.value.type = target.value.type →
    takeCpp ⟨.variant v, 0, []⟩ target = some value
  getAll : ∀ reply : FullMessage, reply.isError = false →
    ∀ dict, reply.message.body.head? = some dict → dict.Valid → dict.signature = text "a{sv}" →
      wireAt (.string propertyName) dict = some w →
      ∃ all, Settles (fun fuel => (client.getAll interface).run fuel reply) (.ok ⟨all, 0, []⟩) ∧
        valueAt (.string propertyName) all = some (.variant v)
  async : SendsSame (client.get interface propertyName) (client.getAsync interface propertyName) ∧
    SendsSame (client.getAll interface) (client.getAllAsync interface)

theorem Client.sendsSame_call {α : Type} {client : Client dbusValidateBusName} {interface : Bytes}
    (hpass : client.refusal interface = none) (start : α) (msg : Request)
    (handler : ReplyHandler α) :
    SendsSame (client.call interface start msg handler)
      (client.callAsync interface msg handler) := by
  refine ⟨msg, handler, ?_, ?_, ?_⟩
  · simp [Client.call, hpass]
  · simp [Client.callAsync, hpass, sendTo]
  · simp [Client.callAsync, hpass, sendTo]

/-- A property is set by one request, if the names pass. -/
theorem Client.set_eq {κ : Type} {client : Client dbusValidateBusName} {interface : Bytes}
    (hpass : client.refusal interface = none) (propertyName : Bytes) {value : PropertyValue}
    {v : DbusType} (hvalue : value.toVariant = some v) (timeout : Int) :
    ∃ timeout', (client.set interface propertyName value timeout : Program κ _) =
      .ask (.sendAndWait
        (setRequest client.destination client.path interface propertyName v) timeout')
        fun reply => .done (replyResult (Retvalue.of true) reply) := by
  cases client with
  | properties busName opath =>
    obtain ⟨hname, hpath, hinterface⟩ : dbusValidateBusName (cStr busName) = true ∧
        dbusValidatePath (cStr opath) = true ∧ dbusValidateInterface interface = true := by
      simp only [refusal] at hpass
      grind
    refine ⟨timeout, ?_⟩
    simp only [set, Results.set, Results.withVariant, hvalue, Results.setVariant, hname, hpath,
      hinterface]
    rfl
  | proxy p =>
    have hinterface : (interface = [] || !dbusValidateInterface interface) = false := by
      simp only [refusal] at hpass
      grind
    refine ⟨if timeout < 0 then p.defTimeout else timeout, ?_⟩
    simp only [set, Results.setIfaceProperty, Results.withVariant, hvalue,
      Results.setIfacePropertyVariant, hinterface]
    rfl

theorem Client.setAsync_eq {client : Client dbusValidateBusName} {interface : Bytes}
    (hpass : client.refusal interface = none) (propertyName : Bytes) (v : DbusType)
    (callback : Bool) :
    client.setAsync interface propertyName v callback = sendTo handleSetReply
      (setRequest client.destination client.path interface propertyName v) callback := by
  simp [Client.setAsync, Client.callAsync, hpass]

/-- The body of the request that sets a property. -/
theorem exists_setRequest_body (destination path : Bytes) {interface propertyName : Bytes}
    {value : DbusType} (hinterface : Sendable interface) (hname : Sendable propertyName)
    (hvalue : value.Coherent) :
    ∃ w, Carried value w ∧
      (setRequest destination path interface propertyName value).message.map Message.body =
        some [.basic (.string interface), .basic (.string propertyName), w] := by
  obtain ⟨w, hw⟩ := hvalue.exists_carried
  have htext : ∀ {s : Bytes}, Sendable s → Carried (.basic (.string s)) (.basic (.string s)) := by
    intro s hs
    cases hs with
    | basic hvalid hnul _ => exact .basic hvalid hnul
  let args : List Arg := [.cpp (.string interface), .cpp (.string propertyName), .dbusType value]
  have hcoherent : ∀ arg ∈ args, arg.value.Coherent := by
    simp only [args, List.forall_mem_cons]
    exact ⟨hinterface, hname, hvalue, nofun⟩
  have hcarried : List.Forall₂ (fun (arg : Arg) w => Carried arg.value w) args
      [.basic (.string interface), .basic (.string propertyName), w] :=
    .cons (htext hinterface) (.cons (htext hname) (.cons hw .nil))
  have hargs := appendArgsImpl_any hcoherent hcarried []
  refine ⟨w, hw, ?_⟩
  have hvalid : Message.isValid ⟨some ⟨dbusMessageTypeMethodCall, []⟩⟩ = true := by decide
  simp only [args] at hargs
  simp [setRequest, Request.appendArgs, Request.new, Message.appendArgs, hvalid, AppendIter.init,
    hargs, Message.body]

theorem classFits_of_coherent {v : DbusType} (h : v.Coherent) : v.ClassFits := by
  cases h with
  | basic _ _ _ => trivial
  | array _ _ _ _ => rfl
  | struct _ _ _ => rfl
  | dict _ _ _ _ _ _ _ => exact ⟨_, rfl⟩
  | variant _ _ => trivial

theorem firstCode_ne_variant {v : DbusType} (h : v.Coherent) (hvariant : v.isVariant = false) :
    v.firstCode ≠ dbusTypeVariant := by
  cases h with
  | @basic value _ _ _ => exact value.type.code_ne_variant
  | variant _ _ => cases hvariant
  | _ => simp only [DbusType.firstCode]; decide

/-- A variable with the signature of a value is an array where the value is one. -/
theorem isArray_eq_of_coherent {v target : DbusType} (hv : v.Coherent) (hfits : target.ClassFits)
    (hentries : target.isEntryArray = false) (hsig : target.signature = v.signature) :
    target.isArray = v.isArray := by
  have hcode := hfits.firstCode_eq (classFits_of_coherent hv) hsig
  have htarget := target.firstCode_eq_array_iff
  have hvalue := v.firstCode_eq_array_iff
  cases hv with
  | @array element items _ hhead _ _ =>
    cases target with
    | array _ _ => rfl
    | dict key sig items =>
      obtain ⟨value, rfl⟩ := hfits
      have helement : dictSignature key value = dbusTypeArray :: element := hsig
      obtain rfl := (List.cons.inj helement).2
      exact absurd rfl hhead
    | _ => simp_all [DbusType.isArray, DbusType.isDict]
  | @dict key value items _ _ _ _ _ _ _ =>
    cases target with
    | array sig items =>
      have harray : sig = dictSignature key value := hsig
      subst harray
      cases hentries
    | _ => rfl
  | _ => cases target <;> simp_all [DbusType.isArray, DbusType.isDict]

theorem takeCpp_of_type_eq {value target : CppValue} (h : value.value.type = target.value.type) :
    takeCpp ⟨.variant (.basic value.value), 0, []⟩ target = some value := by
  obtain ⟨value, hcpp⟩ := value
  simp only at h
  by_cases hstring : target.value.type = .string
  · rw [hstring] at h
    cases value with
    | string s => simp [takeCpp, getNextMessageArgument, hstring]
    | _ => cases h
  · simp [takeCpp, getNextMessageArgument, hstring, h]

/-- A reply to `Get` with the value. -/
theorem get_settles {client : Client dbusValidateBusName} {interface propertyName : Bytes}
    (hpass : client.refusal interface = none) {w : Wire} {v : DbusType}
    (hw : Decodes w (.variant v)) {reply : FullMessage} (herror : reply.isError = false)
    (hhead : reply.message.body.head? = some w) :
    Settles (fun fuel => (client.get interface propertyName).run fuel reply)
      (.ok ⟨.variant v, 0, []⟩) := by
  cases hbody : reply.message.body with
  | nil => simp [hbody] at hhead
  | cons w' rest =>
    obtain rfl : w' = w := by simpa [hbody] using hhead
    refine hw.mono fun fuel hfuel => ?_
    simp [Client.get, Client.call, hpass, Sync.run, handleGetReply, herror, Message.getArgs, hbody,
      getArgsImpl, getArg, hfuel, Retvalue.of, acceptsArg, DbusVariant.default, DbusType.isArray,
      DbusType.isDict, DbusType.signature, DbusType.moveAssign, DbusVariant.ofPointer]

/-- A reply to `GetAll` that has the value under a name. -/
theorem getAll_settles {client : Client dbusValidateBusName} {interface : Bytes}
    (hpass : client.refusal interface = none) {reply : FullMessage} (herror : reply.isError = false)
    {dict : Wire} (hhead : reply.message.body.head? = some dict) (hvalid : dict.Valid)
    (hsig : dict.signature = text "a{sv}") :
    ∃ items, TextDict .string (text "v") dict items ∧
      Settles (fun fuel => (client.getAll interface).run fuel reply)
        (.ok ⟨.dict .string (text "a{sv}") items, 0, []⟩) := by
  obtain ⟨items, hitems⟩ := exists_textDict (text "v") (.inl rfl) hvalid hsig
  let all : DbusType := .dict .string (text "a{sv}") []
  refine ⟨items, hitems, ?_⟩
  cases hbody : reply.message.body with
  | nil => simp [hbody] at hhead
  | cons w' rest =>
    obtain rfl : w' = dict := by simpa [hbody] using hhead
    have hfirst := hitems.reads.getArg_settles all ⟨text "v", rfl⟩ rfl rfl rest
    have hargs := getArgsImpl_cons hfirst (getArgsImpl_nil true rest)
    have hdict : dictSignature .string (text "v") = text "a{sv}" := rfl
    refine hargs.mono fun fuel hfuel => ?_
    simp [Client.getAll, Client.call, hpass, Sync.run, handleGetAllReply, herror, Message.getArgs,
      hbody, hfuel, Retvalue.of, all, hdict]

/-- What `set` and `set_iface_property` send as the value of a property, in both forms, is what
    either class reads back. -/
theorem set_readBack (setter getter : Client dbusValidateBusName) {interface propertyName : Bytes}
    (hset : setter.refusal interface = none) (hget : getter.refusal interface = none)
    (hinterface : Sendable interface) (hname : Sendable propertyName) {value : PropertyValue}
    {v : DbusType} (hvalue : value.toVariant = some (.variant v))
    (hv : (DbusType.variant v).Coherent) :
    let msg := setRequest setter.destination setter.path interface propertyName (.variant v)
    (∀ (κ : Type) timeout, ∃ timeout' next,
        (setter.set interface propertyName value timeout : Program κ _) =
          .ask (.sendAndWait msg timeout') next) ∧
      setter.setAsync interface propertyName (.variant v) true =
        .send msg (some handleSetReply) ∧
      setter.setAsync interface propertyName (.variant v) false =
        .send { msg with wantReply := false } none ∧
      ∃ w, msg.message.map Message.body =
          some [.basic (.string interface), .basic (.string propertyName), w] ∧
        ReadBack getter interface propertyName w v := by
  intro msg
  obtain ⟨w, hw, hbody⟩ := exists_setRequest_body setter.destination setter.path hinterface hname hv
  refine ⟨fun κ timeout => ?_, Client.setAsync_eq hset propertyName _ true,
    Client.setAsync_eq hset propertyName _ false, w, hbody,
    fun reply herror hhead => get_settles hget hw.decodes herror hhead, ?_, ?_, ?_,
    Client.sendsSame_call hget _ _ _, Client.sendsSame_call hget _ _ _⟩
  · obtain ⟨timeout', hsend⟩ := Client.set_eq hset propertyName hvalue timeout
    exact ⟨timeout', _, hsend⟩
  · intro target hfits hentries hsig
    cases hv with
    | variant hvariant hvalue =>
      have harray := isArray_eq_of_coherent hvalue hfits hentries hsig
      have hassign := DbusType.moveAssign_of_signature_eq hfits (classFits_of_coherent hvalue) hsig
        harray
      cases target with
      | variant _ =>
        have hcode := hfits.firstCode_eq (classFits_of_coherent hvalue) hsig
        exact absurd hcode.symm (firstCode_ne_variant hvalue hvariant)
      | _ => simp [takeDbus, hsig, hassign, Except.map]
  · rintro value target rfl htype
    exact takeCpp_of_type_eq htype
  · intro reply herror dict hhead hvalid hsig hentry
    obtain ⟨items, hitems, hrun⟩ := getAll_settles hget herror hhead hvalid hsig
    refine ⟨_, hrun, ?_⟩
    have hrel := hitems.lookup (.string propertyName) rfl
    rw [hentry] at hrel
    rw [valueAt]
    generalize OrderedMap.lookup Basic.less (.string propertyName) items = found at hrel
    cases hrel with
    | some h => rw [h.2.2.unique hw.decodes]

/-- A proxy for `/a` of `a.b`. -/
def sampleProxy : ObjectProxy (fun _ => true) := ⟨text "a.b", text "/a", -1, rfl, by decide⟩

/-- A number that is set by its owner's name is read back by a proxy. -/
theorem set_readBack_sample :
    let msg := setRequest (text "a.b") (text "/a") (text "i.j") (text "p")
      (.variant (.basic (.int32 7)))
    (∃ timeout next, (Results.set (fun _ => true) (text "a.b") (text "/a") (text "i.j") (text "p")
        (.basic ⟨.int32 7, rfl⟩) (-1) : Program Unit _) = .ask (.sendAndWait msg timeout) next) ∧
      ∃ w, msg.message.map Message.body =
          some [.basic (.string (text "i.j")), .basic (.string (text "p")), w] ∧
        ReadBack (.proxy sampleProxy) (text "i.j") (text "p") w (.basic (.int32 7)) := by
  have hinterface : Sendable (text "i.j") := .basic (by decide) (by decide) (by decide)
  have hname : Sendable (text "p") := .basic (by decide) (by decide) (by decide)
  have hvariant : (PropertyValue.basic ⟨.int32 7, rfl⟩).toVariant =
      some (.variant (.basic (.int32 7))) := rfl
  have hvalue : (DbusType.basic (.int32 7)).Coherent := .basic trivial trivial (by decide)
  obtain ⟨hset, -, -, hread⟩ := set_readBack (.properties (text "a.b") (text "/a"))
    (.proxy sampleProxy) (by decide) (by decide) hinterface hname hvariant (.variant rfl hvalue)
  exact ⟨hset Unit (-1), hread⟩

end Ultrabus.Interfaces
