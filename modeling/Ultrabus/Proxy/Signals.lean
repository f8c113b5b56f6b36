import Ultrabus.Message.GetArgs
import Ultrabus.Proxy.Callbacks

/-! # Change signals

What a list of object proxies, registered as filters on one connection, makes of a
`PropertiesChanged`, `InterfacesAdded` or `InterfacesRemoved` signal.  libdbus runs the
filters in the order of their registration, until one of them has handled the message. -/

namespace Ultrabus.Proxy

open Exec (Settles)
open List (Forall₂)

/-- A received message with the header fields that are looked at. -/
structure Received where
  sender : Bytes
  path : Bytes
  interface : Bytes
  name : Bytes
  message : Message

/-- A proxy among the filters of a connection, with what its signal callbacks return. -/
structure Registered where
  proxy : State
  returns : Bytes × Bytes → Received → Bool

/-- A call of a callback. -/
inductive Event where
  | interfacesAdded (ifacesProps : List (Bytes × DbusType))
  | interfacesRemoved (removedIfaces : List Bytes)
  | propertiesChanged (ifaceName : Bytes) (changedProps : DbusType)
      (invalidatedProperties : List Bytes)
  | signal (key : Bytes × Bytes)

/-! ## The handlers of the three signals -/

def dbusIfaceObjectManager : Bytes := text "org.freedesktop.DBus.ObjectManager"

/-- `DBUS_INTERFACE_PROPERTIES`. -/
def dbusInterfaceProperties : Bytes := text "org.freedesktop.DBus.Properties"

/-- The text of a string or an object path. -/
def textOf : DbusType → Bytes
  | .basic (.string s) | .basic (.objectPath s) => s
  | _ => []

/-- `std::set<std::string>`, filled with the elements of an array of strings. -/
def setOfTexts (items : List DbusType) : List Bytes :=
  (items.foldl (fun set i => OrderedMap.emplace textLess (textOf i) () set) []).map Prod.fst

/-- `cast<dbus_string_dict> ()`. -/
def castStringDict : DbusType → Except Exception DbusType
  | .dict .string sig items => .ok (.dict .string sig items)
  | _ => .error .badCast

/-- The map of interfaces that is filled in `on_iface_added`. -/
def emplaceIfaces : List (Bytes × DbusType) → List (Basic × DbusType) →
    Except Exception (List (Bytes × DbusType))
  | ifacesProps, [] => .ok ifacesProps
  | ifacesProps, (key, value) :: rest => do
    let value ← castStringDict value
    emplaceIfaces (OrderedMap.emplace textLess (textOf (.basic key)) value ifacesProps) rest

/-- The variables start as a `dbus_opath` and a `dbus_string_dict ("a{sv}")`, and keep their
    classes. -/
def onIfaceAdded (fuel : Nat) (p : State) (msg : Received) :
    Exec Exception (Option Event) := do
  let args ← msg.message.getArgs fuel true (.dbus (.basic (.objectPath (text "/"))))
    [.dbus (.dict .string (text "a{sa{sv}}") [])]
  match args with
  | (true, [.dbus opathArg, .dbus (.dict _ _ arg)]) =>
    if textOf opathArg ≠ p.opath then return none
    else
      let ifacesProps ← .ofExcept (emplaceIfaces [] arg)
      return some (.interfacesAdded ifacesProps)
  | _ => return none

/-- The variables start as a `dbus_opath` and a `dbus_array ("s")`. -/
def onIfaceRemoved (fuel : Nat) (p : State) (msg : Received) :
    Exec Exception (Option Event) := do
  let args ← msg.message.getArgs fuel true (.dbus (.basic (.objectPath (text "/"))))
    [.dbus (.array (text "as") [])]
  match args with
  | (true, [.dbus opathArg, .dbus (.array _ arg)]) =>
    if textOf opathArg ≠ p.opath then return none
    else return some (.interfacesRemoved (setOfTexts arg))
  | _ => return none

/-- The variables start as a `std::string`, a `dbus_string_dict (DBUS_TYPE_VARIANT)` and a
    `dbus_array (DBUS_TYPE_STRING)`. -/
def onPropertiesChanged (fuel : Nat) (msg : Received) : Exec Exception (Option Event) := do
  let args ← msg.message.getArgs fuel true (.cpp ⟨.string [], rfl⟩)
    [.dbus (.dict .string (text "a{sv}") []), .dbus (.array (text "as") [])]
  match args with
  | (true, [.cpp ifaceName, .dbus changedProps, .dbus (.array _ invalidatedProps)]) =>
    return some (.propertiesChanged (textOf (.basic ifaceName.value)) changedProps
      (setOfTexts invalidatedProps))
  | _ => return none

/-! ## The filters -/

/-- The signal callback for a message: that of its interface and its name comes before those
    with wildcards. -/
def findCallback (callbacks : List (Bytes × Bytes)) (iface signal : Bytes) :
    Option (Bytes × Bytes) :=
  [(iface, signal), ([], signal), (iface, []), ([], [])].find? callbacks.contains

def callSignalCallback (p : Registered) (msg : Received) : Bool × List Event :=
  match findCallback p.proxy.callbacks msg.interface msg.name with
  | some key => (p.returns key msg, [.signal key])
  | none => (false, [])

/-- A handler that finds nothing to do leaves the message to the signal callbacks. -/
def elseSignalCallback (p : Registered) (msg : Received)
    (handler : Exec Exception (Option Event)) : Exec Exception (Bool × List Event) := do
  let called ← handler
  match called with
  | some event => return (true, [event])
  | none => return callSignalCallback p msg

/-- `object_proxy::on_signal`. -/
def onSignal (fuel : Nat) (p : Registered) (msg : Received) :
    Exec Exception (Bool × List Event) :=
  if msg.sender ≠ p.proxy.targetUniqueName then return (false, [])
  else if p.proxy.objectIfacesAddedCb ∧ msg.interface = dbusIfaceObjectManager ∧
      msg.name = text "InterfacesAdded" ∧ msg.path = p.proxy.ifaceAddOmRoot then
    elseSignalCallback p msg (onIfaceAdded fuel p.proxy msg)
  else if p.proxy.objectIfacesRemovedCb ∧ msg.interface = dbusIfaceObjectManager ∧
      msg.name = text "InterfacesRemoved" ∧ msg.path = p.proxy.ifaceDelOmRoot then
    elseSignalCallback p msg (onIfaceRemoved fuel p.proxy msg)
  else if msg.path ≠ p.proxy.opath then return (false, [])
  else if p.proxy.propertiesChangedCb ∧ msg.interface = dbusInterfaceProperties ∧
      msg.name = text "PropertiesChanged" then
    elseSignalCallback p msg (onPropertiesChanged fuel msg)
  else return callSignalCallback p msg

def dbusMessageTypeSignal : Nat := 4

/-- `message_filter::dispatch_msg`; `on_method_call` is not overridden and handles nothing. -/
def dispatchMsg (fuel : Nat) (p : Registered) (msg : Received) :
    Exec Exception (Bool × List Event) :=
  if msg.message.type = dbusMessageTypeSignal then onSignal fuel p msg
  else return (false, [])

/-- The calls of callbacks by each of the filters: none by those behind one that returned
    `DBUS_HANDLER_RESULT_HANDLED`. -/
def runFilters (fuel : Nat) (msg : Received) :
    List Registered → Exec Exception (List (List Event))
  | [] => return []
  | p :: rest => do
    let (handled, events) ← dispatchMsg fuel p msg
    if handled then return events :: rest.map fun _ => []
    else
      let later ← runFilters fuel msg rest
      return events :: later

/-! ## What the proxies are there for -/

inductive Change where
  | interfacesAdded | interfacesRemoved | propertiesChanged
deriving DecidableEq, Repr

def Change.interface : Change → Bytes
  | .interfacesAdded | .interfacesRemoved => dbusIfaceObjectManager
  | .propertiesChanged => dbusInterfaceProperties

def Change.name : Change → Bytes
  | .interfacesAdded => text "InterfacesAdded"
  | .interfacesRemoved => text "InterfacesRemoved"
  | .propertiesChanged => text "PropertiesChanged"

/-- The signatures of the arguments. -/
def Change.arguments : Change → List Bytes
  | .interfacesAdded => [text "o", text "a{sa{sv}}"]
  | .interfacesRemoved => [text "o", text "as"]
  | .propertiesChanged => [text "s", text "a{sv}", text "as"]

/-- The message is a well-formed signal of the given kind. -/
structure WellFormed (change : Change) (msg : Received) : Prop where
  type : msg.message.type = dbusMessageTypeSignal
  interface : msg.interface = change.interface
  name : msg.name = change.name
  valid : ∀ w ∈ msg.message.body, w.Valid
  arguments : msg.message.body.map Wire.signature = change.arguments

/-- The callback for the signal is installed. -/
def State.installed (s : State) : Change → Bool
  | .interfacesAdded => s.objectIfacesAddedCb
  | .interfacesRemoved => s.objectIfacesRemovedCb
  | .propertiesChanged => s.propertiesChangedCb

/-- The object that sends the signal. -/
def State.origin (s : State) : Change → Bytes
  | .interfacesAdded => s.ifaceAddOmRoot
  | .interfacesRemoved => s.ifaceDelOmRoot
  | .propertiesChanged => s.opath

/-- The object path that comes as the first argument. -/
def Received.objectPathArg (msg : Received) : Option Bytes :=
  match msg.message.body with
  | .basic (.objectPath path) :: _ => some path
  | _ => none

/-- The signal is one for the callback of the proxy. -/
structure Interested (change : Change) (s : State) (msg : Received) : Prop where
  sender : msg.sender = s.targetUniqueName
  installed : s.installed change = true
  origin : msg.path = s.origin change
  object : change ≠ .propertiesChanged → msg.objectPathArg = some s.opath

def Event.change? : Event → Option Change
  | .interfacesAdded _ => some .interfacesAdded
  | .interfacesRemoved _ => some .interfacesRemoved
  | .propertiesChanged _ _ _ => some .propertiesChanged
  | .signal _ => none

/-- The callback is called exactly once if the signal is one for it. -/
def Served (change : Change) (msg : Received) (p : Registered) (events : List Event) : Prop :=
  Interested change p.proxy msg → events.countP (·.change? = some change) = 1

/-- The signal reaches every proxy that is interested in it. -/
def ReachesAll (change : Change) (msg : Received) (filters : List Registered) : Prop :=
  ∃ events, Settles (fun fuel => runFilters fuel msg filters) (.ok events) ∧
    Forall₂ (Served change msg) filters events

/-- The proxy has a signal callback that claims the signal for itself.  The signal comes from
    the object of the proxy, or from where the callback for it expects it from. -/
structure Claims (change : Change) (p : Registered) (msg : Received) : Prop where
  sender : msg.sender = p.proxy.targetUniqueName
  origin : msg.path = p.proxy.opath ∨
    p.proxy.installed change = true ∧ msg.path = p.proxy.origin change
  returns : ∃ key, findCallback p.proxy.callbacks msg.interface msg.name = some key ∧
    p.returns key msg = true

/-- The filters behind the proxy do not see the signal. -/
def Consumes (change : Change) (msg : Received) (p : Registered) : Prop :=
  Interested change p.proxy msg ∨ Claims change p msg

/-! ## The handlers return -/

theorem emplaceIfaces_ok {items : List (Basic × DbusType)}
    (h : ∀ i ∈ items, ∃ sig entries, i.2 = .dict .string sig entries)
    (ifacesProps : List (Bytes × DbusType)) :
    ∃ result, emplaceIfaces ifacesProps items = .ok result := by
  induction items generalizing ifacesProps with
  | nil => exact ⟨ifacesProps, rfl⟩
  | cons i items ih =>
    obtain ⟨key, value⟩ := i
    obtain ⟨sig, entries, rfl⟩ := h _ List.mem_cons_self
    exact ih (fun i hi => h i (List.mem_cons_of_mem _ hi)) _

section Handlers

variable {msg : Received}

/-- The interfaces that come with the signal are dicts with strings for keys. -/
theorem exists_reads_ifaces {w : Wire} (h : w.Valid) (hsig : w.signature = text "a{sa{sv}}") :
    ∃ items, Reads w (.dict .string (text "a{sa{sv}}") items) ∧
      ∀ i ∈ items, ∃ sig entries, i.2 = .dict .string sig entries := by
  obtain ⟨items, hreads, hitems⟩ := h.exists_reads_dict .string (text "a{sv}") hsig
  refine ⟨items, hreads, fun i hi => ?_⟩
  obtain ⟨w', hvalid, hsig', hdecodes⟩ := hitems i hi
  obtain ⟨entries, hreads', -⟩ := hvalid.exists_reads_dict .string (text "v") hsig'
  exact ⟨_, entries, hdecodes.unique hreads'.decodes⟩

/-- The arguments of the signals of an object manager, and what may come behind them. -/
theorem exists_objectArguments {body : List Wire} (hvalid : ∀ w ∈ body, w.Valid) {sig : Bytes}
    (h : [text "o", sig] <+: body.map Wire.signature) :
    ∃ path w rest, body = .basic (.objectPath path) :: w :: rest ∧
      Reads (.basic (.objectPath path)) (.basic (.objectPath path)) ∧
      w.Valid ∧ w.signature = sig := by
  obtain ⟨more, hmore⟩ := h
  obtain ⟨w₁, _, rfl, hsig₁, hrest⟩ := List.map_eq_cons_iff.mp hmore.symm
  obtain ⟨w₂, rest, rfl, hsig₂, -⟩ := List.map_eq_cons_iff.mp hrest
  obtain ⟨value, rfl, htype, hvalue⟩ := (hvalid w₁ (by simp)).exists_basic .objectPath hsig₁
  cases value with
  | objectPath path => exact ⟨path, w₂, rest, rfl, .basic hvalue, hvalid w₂ (by simp), hsig₂⟩
  | _ => cases htype

theorem onIfaceAdded_settles (hvalid : ∀ w ∈ msg.message.body, w.Valid)
    (hargs : Change.interfacesAdded.arguments <+: msg.message.body.map Wire.signature)
    (p : State) :
    ∃ event : Event, event.change? = some .interfacesAdded ∧
      Settles (fun fuel => onIfaceAdded fuel p msg)
        (.ok (if msg.objectPathArg = some p.opath then some event else none)) := by
  obtain ⟨path, w, rest, hbody, hpath, hvalid, hsig⟩ := exists_objectArguments hvalid hargs
  obtain ⟨items, hitems, hdicts⟩ := exists_reads_ifaces hvalid hsig
  obtain ⟨ifacesProps, hmap⟩ := emplaceIfaces_ok hdicts []
  have hfirst := hpath.getArg_settles (.basic (.objectPath (text "/"))) trivial rfl rfl (w :: rest)
  have hsecond := hitems.getArg_settles (.dict .string (text "a{sa{sv}}") [])
    ⟨text "a{sv}", rfl⟩ rfl rfl rest
  have hargs := getArgsImpl_cons hfirst (getArgsImpl_cons hsecond (getArgsImpl_nil true rest))
  refine ⟨.interfacesAdded ifacesProps, rfl, hargs.mono fun fuel hfuel => ?_⟩
  have hrun : onIfaceAdded fuel p msg =
      if path = p.opath then .ok (some (.interfacesAdded ifacesProps)) else .ok none := by
    simp [onIfaceAdded, Message.getArgs, hbody, hfuel, textOf, hmap]
  simp only [hrun, Received.objectPathArg, hbody, Option.some.injEq, apply_ite Exec.ok]

theorem onIfaceRemoved_settles (hvalid : ∀ w ∈ msg.message.body, w.Valid)
    (hargs : Change.interfacesRemoved.arguments <+: msg.message.body.map Wire.signature)
    (p : State) :
    ∃ event : Event, event.change? = some .interfacesRemoved ∧
      Settles (fun fuel => onIfaceRemoved fuel p msg)
        (.ok (if msg.objectPathArg = some p.opath then some event else none)) := by
  obtain ⟨path, w, rest, hbody, hpath, hvalid, hsig⟩ := exists_objectArguments hvalid hargs
  obtain ⟨items, hitems⟩ := hvalid.exists_reads_array (text "s") hsig (by decide)
  have hfirst := hpath.getArg_settles (.basic (.objectPath (text "/"))) trivial rfl rfl (w :: rest)
  have hsecond := hitems.getArg_settles (.array (text "as") []) rfl rfl rfl rest
  have hargs := getArgsImpl_cons hfirst (getArgsImpl_cons hsecond (getArgsImpl_nil true rest))
  refine ⟨.interfacesRemoved (setOfTexts items), rfl, hargs.mono fun fuel hfuel => ?_⟩
  have hrun : onIfaceRemoved fuel p msg =
      if path = p.opath then .ok (some (.interfacesRemoved (setOfTexts items))) else .ok none := by
    simp only [onIfaceRemoved, Message.getArgs, hbody, hfuel, textOf, List.isEmpty_cons,
      Bool.false_eq_true, if_false, Exec.ok_bind, Exec.pure_eq, ne_eq]
    by_cases hsame : path = p.opath
    · simp [hsame]
    · simp [hsame]
  simp only [hrun, Received.objectPathArg, hbody, Option.some.injEq, apply_ite Exec.ok]

theorem onPropertiesChanged_settles (h : WellFormed .propertiesChanged msg) :
    ∃ event : Event, event.change? = some .propertiesChanged ∧
      Settles (fun fuel => onPropertiesChanged fuel msg) (.ok (some event)) := by
  obtain ⟨w₁, _, hbody, hsig₁, hrest⟩ := List.map_eq_cons_iff.mp h.arguments
  obtain ⟨w₂, _, rfl, hsig₂, hrest⟩ := List.map_eq_cons_iff.mp hrest
  obtain ⟨w₃, _, rfl, hsig₃, hrest⟩ := List.map_eq_cons_iff.mp hrest
  obtain rfl := List.map_eq_nil_iff.mp hrest
  have hvalid := h.valid
  rw [hbody] at hvalid
  obtain ⟨value, rfl, htype, -⟩ := (hvalid w₁ (by simp)).exists_basic .string hsig₁
  obtain ⟨items₂, hitems₂, -⟩ :=
    (hvalid w₂ (by simp)).exists_reads_dict .string (text "v") hsig₂
  obtain ⟨items₃, hitems₃⟩ :=
    (hvalid w₃ (by simp)).exists_reads_array (text "s") hsig₃ (by decide)
  cases value with
  | string ifaceName =>
    have hname : Settles (fun fuel => getArg fuel true [.basic (.string ifaceName), w₂, w₃]
        (.cpp ⟨.string [], rfl⟩)) (.ok (some (.cpp ⟨.string ifaceName, rfl⟩))) :=
      .of_forall fun fuel => rfl
    have hchanged := hitems₂.getArg_settles (.dict .string (text "a{sv}") [])
      ⟨text "v", rfl⟩ rfl rfl [w₃]
    have hinvalidated := hitems₃.getArg_settles (.array (text "as") []) rfl rfl rfl []
    have hargs := getArgsImpl_cons hname (getArgsImpl_cons hchanged
      (getArgsImpl_cons hinvalidated (getArgsImpl_nil true [])))
    have hsig : dictSignature .string (text "v") = text "a{sv}" := rfl
    refine ⟨.propertiesChanged ifaceName (.dict .string (text "a{sv}") items₂)
      (setOfTexts items₃), rfl, hargs.mono fun fuel hfuel => ?_⟩
    simp [onPropertiesChanged, Message.getArgs, hbody, hfuel, textOf, hsig]
  | _ => cases htype

/-- The handler of each signal. -/
def Change.handler (change : Change) (fuel : Nat) (p : State) (msg : Received) :
    Exec Exception (Option Event) :=
  match change with
  | .interfacesAdded => onIfaceAdded fuel p msg
  | .interfacesRemoved => onIfaceRemoved fuel p msg
  | .propertiesChanged => onPropertiesChanged fuel msg

/-- A handler calls its callback exactly if the signal is about the object of the proxy. -/
theorem handler_settles {change : Change} (h : WellFormed change msg) (p : State) :
    ∃ event : Event, event.change? = some change ∧
      Settles (fun fuel => change.handler fuel p msg)
        (.ok (if change ≠ .propertiesChanged → msg.objectPathArg = some p.opath then some event
          else none)) := by
  have hargs : change.arguments <+: msg.message.body.map Wire.signature := by
    rw [h.arguments]
  cases change with
  | interfacesAdded => simpa [Change.handler] using onIfaceAdded_settles h.valid hargs p
  | interfacesRemoved => simpa [Change.handler] using onIfaceRemoved_settles h.valid hargs p
  | propertiesChanged => simpa [Change.handler] using onPropertiesChanged_settles h

end Handlers

/-! ## One filter -/

theorem onSignal_eq {change : Change} {msg : Received}
    (hinterface : msg.interface = change.interface) (hname : msg.name = change.name)
    {p : Registered} (hsender : msg.sender = p.proxy.targetUniqueName) (fuel : Nat) :
    onSignal fuel p msg =
      if p.proxy.installed change = true ∧ msg.path = p.proxy.origin change then
        elseSignalCallback p msg (change.handler fuel p.proxy msg)
      else if msg.path ≠ p.proxy.opath then .ok (false, [])
      else .ok (callSignalCallback p msg) := by
  have hifaces : dbusInterfaceProperties ≠ dbusIfaceObjectManager := by decide
  have hnames : text "InterfacesAdded" ≠ text "InterfacesRemoved" := by decide
  rw [onSignal, if_neg (not_not.mpr hsender), hinterface, hname]
  cases change with
  | interfacesAdded =>
    simp only [Change.interface, Change.name, true_and, hnames, hifaces.symm, false_and, and_false,
      if_false, State.installed, State.origin, Change.handler, Exec.pure_eq]
    congr
  | interfacesRemoved =>
    simp only [Change.interface, Change.name, true_and, hnames.symm, hifaces.symm, false_and,
      and_false, if_false, State.installed, State.origin, Change.handler, Exec.pure_eq]
    congr
  | propertiesChanged =>
    simp only [Change.interface, Change.name, hifaces, and_self, and_true, false_and, and_false,
      if_false, State.installed, State.origin, Change.handler, Exec.pure_eq]
    by_cases hpath : msg.path = p.proxy.opath
    · simp only [hpath, ne_eq, not_true, if_false, and_true]
    · simp only [hpath, ne_eq, not_false_iff, if_true, and_false, if_false]

@[simp] theorem elseSignalCallback_some (p : Registered) (msg : Received) (event : Event) :
    elseSignalCallback p msg (.ok (some event)) = .ok (true, [event]) := rfl

@[simp] theorem elseSignalCallback_none (p : Registered) (msg : Received) :
    elseSignalCallback p msg (.ok none) = .ok (callSignalCallback p msg) := rfl

theorem callSignalCallback_fst_iff (p : Registered) (msg : Received) :
    (callSignalCallback p msg).1 = true ↔
      ∃ key, findCallback p.proxy.callbacks msg.interface msg.name = some key ∧
        p.returns key msg = true := by
  rw [callSignalCallback]
  split
  case h_1 key hkey => simp [hkey]
  case h_2 hkey => simp [hkey]

/-- A signal for nobody's callback that is left to the signal callbacks. -/
theorem callSignalCallback_spec {change : Change} {p : Registered} {msg : Received}
    (hsender : msg.sender = p.proxy.targetUniqueName)
    (horigin : msg.path = p.proxy.opath ∨
      p.proxy.installed change = true ∧ msg.path = p.proxy.origin change)
    (huninterested : ¬ Interested change p.proxy msg) :
    ((callSignalCallback p msg).1 = true ↔ Consumes change msg p) ∧
      Served change msg p (callSignalCallback p msg).2 := by
  refine ⟨?_, fun hinterested => absurd hinterested huninterested⟩
  rw [callSignalCallback_fst_iff]
  constructor
  · intro hreturns
    exact .inr ⟨hsender, horigin, hreturns⟩
  · rintro (hinterested | hclaims)
    · exact absurd hinterested huninterested
    · exact hclaims.returns

/-- What one filter does with the signal: it is handled exactly if the filters behind are not
    to see it, and the callback is called once if the signal is one for it. -/
theorem dispatchMsg_settles {change : Change} {msg : Received} (h : WellFormed change msg)
    (p : Registered) :
    ∃ handled events, Settles (fun fuel => dispatchMsg fuel p msg) (.ok (handled, events)) ∧
      (handled = true ↔ Consumes change msg p) ∧ Served change msg p events := by
  have hdispatch : ∀ {result}, Settles (fun fuel => onSignal fuel p msg) result →
      Settles (fun fuel => dispatchMsg fuel p msg) result := by
    intro result hresult
    simpa only [dispatchMsg, if_pos h.type] using hresult
  by_cases hsender : msg.sender = p.proxy.targetUniqueName
  case neg =>
    refine ⟨false, [], hdispatch (.of_forall fun fuel => if_pos hsender), ?_, ?_⟩
    · refine iff_of_false Bool.false_ne_true ?_
      rintro (hinterested | hclaims)
      · exact hsender hinterested.sender
      · exact hsender hclaims.sender
    · exact fun hinterested => absurd hinterested.sender hsender
  case pos =>
    have honSignal := onSignal_eq h.interface h.name hsender
    by_cases hcalled : p.proxy.installed change = true ∧ msg.path = p.proxy.origin change
    · -- The handler of the signal is called, and may refuse it.
      simp only [if_pos hcalled] at honSignal
      obtain ⟨event, hevent, hhandler⟩ := handler_settles h p.proxy
      by_cases hobject : change ≠ .propertiesChanged → msg.objectPathArg = some p.proxy.opath
      · rw [if_pos hobject] at hhandler
        refine ⟨true, [event], hdispatch (hhandler.mono fun fuel hfuel => ?_), ?_, fun _ => ?_⟩
        · simp only [honSignal, hfuel, elseSignalCallback_some]
        · exact iff_of_true rfl (.inl ⟨hsender, hcalled.1, hcalled.2, hobject⟩)
        · simp [hevent]
      · rw [if_neg hobject] at hhandler
        refine ⟨(callSignalCallback p msg).1, (callSignalCallback p msg).2,
          hdispatch (hhandler.mono fun fuel hfuel => ?_),
          callSignalCallback_spec hsender (.inr hcalled) fun hinterested =>
            hobject hinterested.object⟩
        simp only [honSignal, hfuel, elseSignalCallback_none]
    · have huninterested : ¬ Interested change p.proxy msg :=
        fun hinterested => hcalled ⟨hinterested.installed, hinterested.origin⟩
      simp only [if_neg hcalled] at honSignal
      by_cases hpath : msg.path = p.proxy.opath
      · exact ⟨(callSignalCallback p msg).1, (callSignalCallback p msg).2,
          hdispatch (.of_forall fun fuel => (honSignal fuel).trans (if_neg (not_not.mpr hpath))),
          callSignalCallback_spec hsender (.inl hpath) huninterested⟩
      · refine ⟨false, [], hdispatch (.of_forall fun fuel =>
          (honSignal fuel).trans (if_pos hpath)), ?_, ?_⟩
        · refine iff_of_false Bool.false_ne_true ?_
          rintro (hinterested | hclaims)
          · exact huninterested hinterested
          · exact hclaims.origin.elim hpath hcalled
        · exact fun hinterested => absurd hinterested huninterested

/-! ## The chain of filters -/

/-- A run of the filters, and which proxies it serves: all that are interested, exactly if
    none of them stands behind a filter that consumes the signal. -/
theorem runFilters_settles {change : Change} {msg : Received} (h : WellFormed change msg)
    (filters : List Registered) :
    ∃ events, Settles (fun fuel => runFilters fuel msg filters) (.ok events) ∧
      (Forall₂ (Served change msg) filters events ↔
        filters.Pairwise fun before p =>
          Interested change p.proxy msg → ¬ Consumes change msg before) := by
  induction filters with
  | nil => exact ⟨[], .of_forall fun fuel => rfl, iff_of_true .nil .nil⟩
  | cons p filters ih =>
    obtain ⟨handled, events, hrun, hhandled, hserved⟩ := dispatchMsg_settles h p
    cases handled with
    | true =>
      refine ⟨events :: filters.map fun _ => [], hrun.mono fun fuel hfuel => ?_, ?_⟩
      · simp [runFilters, hfuel]
      · -- Nobody behind the proxy is served.
        have hconsumes := hhandled.mp rfl
        rw [List.forall₂_cons, List.pairwise_cons, List.forall₂_map_right_iff, List.forall₂_same]
        constructor
        · rintro ⟨-, hnone⟩
          have huninterested : ∀ q ∈ filters, ¬ Interested change q.proxy msg :=
            fun q hq hinterested => absurd (hnone q hq hinterested) (by simp)
          refine ⟨fun q hq hinterested => absurd hinterested (huninterested q hq), ?_⟩
          exact List.pairwise_of_forall_mem_list fun _ _ q hq hinterested =>
            absurd hinterested (huninterested q hq)
        · rintro ⟨hbefore, -⟩
          exact ⟨hserved, fun q hq hinterested => absurd hconsumes (hbefore q hq hinterested)⟩
    | false =>
      obtain ⟨later, hlater, hiff⟩ := ih
      refine ⟨events :: later, ?_, ?_⟩
      · filter_upwards [hrun, hlater] with fuel hrun hlater
        simp [runFilters, hrun, hlater]
      · have hpasses : ¬ Consumes change msg p := fun hc => Bool.false_ne_true (hhandled.mpr hc)
        rw [List.forall₂_cons, List.pairwise_cons, hiff]
        constructor
        · rintro ⟨-, hrest⟩
          exact ⟨fun q _ _ => hpasses, hrest⟩
        · rintro ⟨-, hrest⟩
          exact ⟨hserved, hrest⟩

/-- For any proxies in any order of registration, a well-formed signal reaches every proxy
    that is interested in it exactly if none of them is registered behind a proxy that is
    interested too, or that has a signal callback which claims the signal for itself. -/
theorem reachesAll_iff {change : Change} {msg : Received} (h : WellFormed change msg)
    (filters : List Registered) :
    ReachesAll change msg filters ↔
      filters.Pairwise fun before p =>
        Interested change p.proxy msg → ¬ Consumes change msg before := by
  obtain ⟨events, hrun, hiff⟩ := runFilters_settles h filters
  rw [← hiff]
  constructor
  · rintro ⟨events', hrun', hserved⟩
    obtain rfl := Exec.ok.inj (hrun'.unique hrun)
    exact hserved
  · exact fun hserved => ⟨events, hrun, hserved⟩

/-- A proxy with a callback for changed properties of an object of `:1.5`. -/
def watcher (opath : Bytes) : Registered where
  proxy := (setPropertiesChangedCallback (initial (text ":1.5") opath) true none true).1
  returns _ _ := false

/-- `:1.5` tells that a property of its object `/a` has changed. -/
def propertiesChangedMessage : Received where
  sender := text ":1.5"
  path := text "/a"
  interface := dbusInterfaceProperties
  name := text "PropertiesChanged"
  message := {
    ctx := some {
      type := dbusMessageTypeSignal
      body := [.basic (.string (text "org.example.I")),
        .array (dictEntrySignature .string (text "v"))
          ([(.string (text "P"), .variant [.basic (.boolean true)])].map Wire.entry),
        .array (text "s") []] } }

theorem propertiesChangedMessage_wellFormed :
    WellFormed .propertiesChanged propertiesChangedMessage where
  type := rfl
  interface := rfl
  name := rfl
  valid := by
    intro w hw
    simp only [propertiesChangedMessage, Message.body, List.mem_cons, List.not_mem_nil,
      or_false] at hw
    obtain rfl | rfl | rfl := hw
    · exact .basic (by decide +kernel)
    · refine .dict (by decide) (by decide) (by decide) fun e he => ?_
      obtain rfl := List.mem_singleton.mp he
      exact .variant (by decide) (.basic trivial)
    · exact .array (by decide) (by decide) (by decide) fun w hw => absurd hw List.not_mem_nil
  arguments := rfl

/-- A proxy of another object does not keep the signal from the one behind it. -/
theorem propertiesChangedMessage_reachesAll :
    ReachesAll .propertiesChanged propertiesChangedMessage
      [watcher (text "/b"), watcher (text "/a")] := by
  refine (reachesAll_iff propertiesChangedMessage_wellFormed _).mpr ?_
  refine .cons ?_ (List.pairwise_singleton _ _)
  rintro p - - (hinterested | hclaims)
  · exact absurd hinterested.origin (by decide)
  · obtain ⟨key, -, hreturns⟩ := hclaims.returns
    cases hreturns

/-- Of two proxies of one object only the first one registered gets the signal. -/
theorem propertiesChangedMessage_not_reachesAll :
    WellFormed .propertiesChanged propertiesChangedMessage ∧
      ¬ ReachesAll .propertiesChanged propertiesChangedMessage
        [watcher (text "/a"), watcher (text "/a")] := by
  refine ⟨propertiesChangedMessage_wellFormed, ?_⟩
  have hinterested : Interested .propertiesChanged (watcher (text "/a")).proxy
      propertiesChangedMessage := ⟨by decide, by decide, by decide, fun h => absurd rfl h⟩
  obtain ⟨events, hrun, hiff⟩ := runFilters_settles propertiesChangedMessage_wellFormed
    [watcher (text "/a"), watcher (text "/a")]
  rintro ⟨events', hrun', hserved⟩
  obtain rfl := Exec.ok.inj (hrun'.unique hrun)
  have hpairwise := List.pairwise_cons.mp (hiff.mp hserved)
  exact hpairwise.1 _ (List.mem_singleton_self _) hinterested (.inl hinterested)

end Ultrabus.Proxy
