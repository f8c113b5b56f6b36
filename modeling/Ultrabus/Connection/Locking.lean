import Ultrabus.Lib.LockOrder
import Ultrabus.Lib.Transition

/-! # The mutexes of the library

What the functions of `connection`, of the message filters and of the object handlers do to the
mutexes of the library and to the lock of the `DBusConnection`: client threads that call any of
them, the I/O thread, and the dispatch thread with the callbacks that it runs, in which the user
may call them too.

A function is its list of locks and unlocks, with the places where it waits for a reply or joins
a thread; how its tests come out and what libdbus calls back are chosen when it is called.
Functions that only send a message and read its reply come down to `send`, `sendWithCallback` and
`sendAndWait`.  The filters are elements of `φ`, the object handlers of `η`, and client threads of
`τ`. -/

namespace Ultrabus.Locking

open LockOrder

inductive Mutex (φ η : Type) where
  | dispatchCond
  | connState
  | cb
  | pending
  | watcher
  | timer
  -- the lock of the `DBusConnection`
  | libdbus
  -- `match_rule_mutex` of a filter; the connection is the filter `none`
  | matchRule (f : Option φ)
  -- `cb_mutex`, `props_changed_mutex` or `iface_mutex` of the class of a filter
  | filterClass (f : φ)
  | opaths (h : η)
  -- `callback_object_handler::cb_mutex`
  | methodCallCb (h : η)
deriving DecidableEq, Repr

inductive Thread (τ : Type) where
  | client (t : τ)
  | io
  | dispatcher
deriving DecidableEq, Repr

variable {τ φ η : Type}

abbrev Program (τ φ η : Type) := List (Instr (Thread τ) (Mutex φ η))

/-! ## Functions that libdbus calls -/

def onAddWatch : Program τ φ η := guarded .watcher []
def onRemoveWatch : Program τ φ η := guarded .watcher []
def onToggledWatch : Program τ φ η := guarded .watcher []
def onAddTimeout : Program τ φ η := guarded .timer []
def onRemoveTimeout : Program τ φ η := guarded .timer []

def onToggledTimeout (enabled : Bool) : Program τ φ η :=
  if enabled then onAddTimeout else onRemoveTimeout

-- A notification needs no mutex.
def onWakeupMain : Program τ φ η := []
def onDispatchStatus : Program τ φ η := []

inductive Event where
  | addWatch
  | removeWatch
  | toggledWatch
  | addTimeout
  | removeTimeout
  | toggledTimeout (enabled : Bool)
  | wakeupMain
  | dispatchStatus
deriving DecidableEq, Repr

def Event.program : Event → Program τ φ η
  | .addWatch => onAddWatch
  | .removeWatch => onRemoveWatch
  | .toggledWatch => onToggledWatch
  | .addTimeout => onAddTimeout
  | .removeTimeout => onRemoveTimeout
  | .toggledTimeout enabled => onToggledTimeout enabled
  | .wakeupMain => onWakeupMain
  | .dispatchStatus => onDispatchStatus

/-- What libdbus calls back with its lock held, or without. -/
inductive Section where
  | locked (events : List Event)
  | unlocked (events : List Event)
deriving DecidableEq, Repr

def Section.program : Section → Program τ φ η
  | .locked events => guarded .libdbus (events.flatMap Event.program)
  | .unlocked events => events.flatMap Event.program

/-- Any functions of libdbus one after the other. -/
abbrev LibCall := List Section

def libdbus (call : LibCall) : Program τ φ η :=
  call.flatMap Section.program

/-! ## The connection -/

/-- What `disconnect_impl` comes to. -/
structure Teardown where
  removeFilterHandler : LibCall
  getIsConnected : LibCall
  -- the calls that are cancelled, and the flush and the close, if there is still a connection
  stillConnected : Option (LibCall × LibCall)
  resetFunctions : LibCall
  unrefPending : LibCall
  joinsIo : Bool
  joinsDispatcher : Bool
  unref : LibCall
deriving DecidableEq, Repr

/-- `connection::disconnect_impl` once it has unlocked `conn_state_mutex`. -/
def disconnectUnlocked (d : Teardown) : Program τ φ η :=
  libdbus d.getIsConnected ++
  d.stillConnected.elim [] (fun (cancel, flush) =>
    guarded .pending (libdbus cancel) ++ libdbus flush) ++
  libdbus d.resetFunctions ++ libdbus d.unrefPending ++
  (if d.joinsIo then [.join .io] else []) ++
  (if d.joinsDispatcher then [.join .dispatcher] else []) ++
  libdbus d.unref

/-- `connection::disconnect_impl`, which is called with `conn_state_mutex` locked. -/
def disconnectImpl (d : Teardown) : Program τ φ η :=
  libdbus d.removeFilterHandler ++ .unlock .connState :: disconnectUnlocked d

/-- A function that tests and changes the state of the connection, and gives it up or not. -/
def underConnState (call : LibCall) (teardown : Option Teardown) : Program τ φ η :=
  .lock .connState :: (libdbus call ++ teardown.elim [.unlock .connState] disconnectImpl)

def connect (setup : LibCall) (failure : Option Teardown) : Program τ φ η :=
  underConnState setup failure

/-- What `is_connected` asks libdbus, and what it does when the connection has been dropped. -/
structure Check where
  getIsConnected : LibCall
  dropped : Option Teardown
deriving DecidableEq, Repr

def isConnected (check : Check) : Program τ φ η :=
  underConnState check.getIsConnected check.dropped

def disconnect (teardown : Option Teardown) : Program τ φ η :=
  underConnState [] teardown

/-- A call of `connection::send`; there is nothing to send without a connection. -/
structure Sending where
  check : Check
  call : Option LibCall
deriving DecidableEq, Repr

/-- `connection::send (msg, serial)`. -/
def send (sending : Sending) : Program τ φ η :=
  isConnected sending.check ++ sending.call.elim [] libdbus

/-- `connection::send (msg, reply_cb, timeout)`. -/
def sendWithCallback (sending : Sending) : Program τ φ η :=
  isConnected sending.check ++ sending.call.elim [] fun call => guarded .pending (libdbus call)

structure Waiting where
  check : Check
  sending : Option Sending
  isSent : Bool
deriving DecidableEq, Repr

def sendAndWait (waiting : Waiting) : Program τ φ η :=
  isConnected waiting.check ++ waiting.sending.elim [] fun sending =>
    sendWithCallback sending ++ if waiting.isSent then [.wait] else []

/-! ## Message filters -/

/-- A call of the synchronous `add_match` or `remove_match`: whether there is a connection, and a
    request to be made. -/
structure MatchCall where
  check : Check
  request : Option (Option Waiting)
deriving DecidableEq, Repr

def addMatch (f : Option φ) (c : MatchCall) : Program τ φ η :=
  isConnected c.check ++ c.request.elim [] fun request =>
    guarded (.matchRule f) (request.elim [] sendAndWait)

def removeMatch (f : Option φ) (c : MatchCall) : Program τ φ η :=
  isConnected c.check ++ c.request.elim [] fun request =>
    guarded (.matchRule f) (request.elim [] sendAndWait)

/-- The same for the asynchronous forms, with or without a callback. -/
structure MatchCallAsync where
  check : Check
  request : Option (Option (Bool × Sending))
deriving DecidableEq, Repr

def matchRequest : Bool × Sending → Program τ φ η
  | (true, sending) => sendWithCallback sending
  | (false, sending) => send sending

def addMatchAsync (f : Option φ) (c : MatchCallAsync) : Program τ φ η :=
  isConnected c.check ++ c.request.elim [] fun request =>
    guarded (.matchRule f) (request.elim [] matchRequest)

def removeMatchAsync (f : Option φ) (c : MatchCallAsync) : Program τ φ η :=
  isConnected c.check ++ c.request.elim [] fun request =>
    guarded (.matchRule f) (request.elim [] matchRequest)

/-- `message_filter::~message_filter`. -/
def destroyFilter (f : Option φ) (check : Check) (requests : Option LibCall) : Program τ φ η :=
  guarded (.matchRule f) (isConnected check ++ requests.elim [] libdbus)

/-- A rule that is added or removed. -/
inductive RuleCall where
  | add (c : MatchCall)
  | remove (c : MatchCall)
deriving DecidableEq, Repr

def RuleCall.program (f : φ) : RuleCall → Program τ φ η
  | .add c => addMatch (some f) c
  | .remove c => removeMatch (some f) c

/-- A name is looked up in front of the function that sets a callback, if it is not known; a
    function whose look-up fails ends there. -/
def setAfterLookup (f : φ) (lookup : Option Waiting) (rules : Option (List RuleCall)) :
    Program τ φ η :=
  lookup.elim [] sendAndWait ++ rules.elim [] fun rules =>
    guarded (.filterClass f) (rules.flatMap (RuleCall.program f))

/-- A name is looked up under the mutex. -/
def setUnderLookup (f : φ) (lookup : Option Waiting) (rules : List RuleCall) : Program τ φ η :=
  guarded (.filterClass f) (lookup.elim [] sendAndWait ++ rules.flatMap (RuleCall.program f))

def setSignalCallback (f : φ) (lookup : Option Waiting) (rules : Option (List RuleCall)) :
    Program τ φ η :=
  setAfterLookup f lookup rules

def clearSignalCallbacks (f : φ) (rules : List RuleCall) : Program τ φ η :=
  guarded (.filterClass f) (rules.flatMap (RuleCall.program f))

/-- `object_proxy::set_interfaces_added_callback` and `set_interfaces_removed_callback`. -/
def setInterfacesCallback (f : φ) (lookup : Option Waiting) (rules : List RuleCall) :
    Program τ φ η :=
  setUnderLookup f lookup rules

/-- `object_proxy::set_properties_changed_callback`. -/
def setPropertiesChangedCallback (f : φ) (lookup : Option Waiting) (rules : List RuleCall) :
    Program τ φ η :=
  setUnderLookup f lookup rules

/-- The function of `org_freedesktop_DBus_Properties`. -/
def propertiesSetCallback (f : φ) (lookup : Option Waiting) (rules : Option (List RuleCall)) :
    Program τ φ η :=
  setAfterLookup f lookup rules

/-- The functions of `org_freedesktop_DBus_ObjectManager`. -/
def objectManagerSetCallback (f : φ) (lookup : Option Waiting) (rules : Option (List RuleCall)) :
    Program τ φ η :=
  setAfterLookup f lookup rules

/-- The functions of `callback_message_filter` that set a callback. -/
def setFilterCallback (f : φ) : Program τ φ η :=
  guarded (.filterClass f) []

/-- `connection::set_name_owner_changed_cb`, `set_name_lost_cb` and `set_name_acquired_cb`: a rule
    is added or removed, if there is a connection. -/
def setNameCb (check : Check) (request : Option (Option (Bool × MatchCallAsync))) :
    Program τ φ η :=
  isConnected check ++ request.elim [] fun rule =>
    guarded .cb (rule.elim [] fun (adds, c) =>
      if adds then addMatchAsync none c else removeMatchAsync none c)

/-! ## Object handlers -/

/-- `register_object_path`; a path that is there already needs no connection. -/
def registerObjectPath (h : η) (new : Option (Check × Option LibCall)) : Program τ φ η :=
  guarded (.opaths h) (new.elim [] fun (check, call) =>
    isConnected check ++ call.elim [] libdbus)

def unregisterObjectPath (h : η) (check : Check) (call : Option LibCall) : Program τ φ η :=
  guarded (.opaths h) (isConnected check ++ call.elim [] libdbus)

/-- `object_handler::~object_handler`. -/
def destroyHandler (h : η) (check : Check) (calls : Option LibCall) : Program τ φ η :=
  guarded (.opaths h) (isConnected check ++ calls.elim [] libdbus)

/-- `callback_object_handler::set_method_call_cb`. -/
def setMethodCallCb (h : η) : Program τ φ η :=
  guarded (.methodCallCb h) []

/-! ## What the user calls -/

inductive Call (φ η : Type) where
  | connect (setup : LibCall) (failure : Option Teardown)
  | isConnected (check : Check)
  | disconnect (teardown : Option Teardown)
  | send (sending : Sending)
  | sendWithCallback (sending : Sending)
  | sendAndWait (waiting : Waiting)
  | setNameCb (check : Check) (request : Option (Option (Bool × MatchCallAsync)))
  | constructFilter (installHandler : LibCall)
  | destroyFilter (f : Option φ) (check : Check) (requests : Option LibCall)
  | addMatch (f : Option φ) (c : MatchCall)
  | removeMatch (f : Option φ) (c : MatchCall)
  | addMatchAsync (f : Option φ) (c : MatchCallAsync)
  | removeMatchAsync (f : Option φ) (c : MatchCallAsync)
  | setSignalCallback (f : φ) (lookup : Option Waiting) (rules : Option (List RuleCall))
  | clearSignalCallbacks (f : φ) (rules : List RuleCall)
  | setInterfacesCallback (f : φ) (lookup : Option Waiting) (rules : List RuleCall)
  | setPropertiesChangedCallback (f : φ) (lookup : Option Waiting) (rules : List RuleCall)
  | propertiesSetCallback (f : φ) (lookup : Option Waiting) (rules : Option (List RuleCall))
  | objectManagerSetCallback (f : φ) (lookup : Option Waiting) (rules : Option (List RuleCall))
  | setFilterCallback (f : φ)
  | registerObjectPath (h : η) (new : Option (Check × Option LibCall))
  | unregisterObjectPath (h : η) (check : Check) (call : Option LibCall)
  | destroyHandler (h : η) (check : Check) (calls : Option LibCall)
  | setMethodCallCb (h : η)
deriving DecidableEq, Repr

def Call.program : Call φ η → Program τ φ η
  | .connect setup failure => Locking.connect setup failure
  | .isConnected check => Locking.isConnected check
  | .disconnect teardown => Locking.disconnect teardown
  | .send sending => Locking.send sending
  | .sendWithCallback sending => Locking.sendWithCallback sending
  | .sendAndWait waiting => Locking.sendAndWait waiting
  | .setNameCb check request => Locking.setNameCb check request
  | .constructFilter installHandler => libdbus installHandler
  | .destroyFilter f check requests => Locking.destroyFilter f check requests
  | .addMatch f c => Locking.addMatch f c
  | .removeMatch f c => Locking.removeMatch f c
  | .addMatchAsync f c => Locking.addMatchAsync f c
  | .removeMatchAsync f c => Locking.removeMatchAsync f c
  | .setSignalCallback f lookup rules => Locking.setSignalCallback f lookup rules
  | .clearSignalCallbacks f rules => Locking.clearSignalCallbacks f rules
  | .setInterfacesCallback f lookup rules => Locking.setInterfacesCallback f lookup rules
  | .setPropertiesChangedCallback f lookup rules =>
    Locking.setPropertiesChangedCallback f lookup rules
  | .propertiesSetCallback f lookup rules => Locking.propertiesSetCallback f lookup rules
  | .objectManagerSetCallback f lookup rules => Locking.objectManagerSetCallback f lookup rules
  | .setFilterCallback f => Locking.setFilterCallback f
  | .registerObjectPath h new => Locking.registerObjectPath h new
  | .unregisterObjectPath h check call => Locking.unregisterObjectPath h check call
  | .destroyHandler h check calls => Locking.destroyHandler h check calls
  | .setMethodCallCb h => Locking.setMethodCallCb h

/-- What the user does, in a thread or in a callback. -/
def userCalls (calls : List (Call φ η)) : Program τ φ η :=
  calls.flatMap Call.program

/-! ## The dispatch thread -/

/-- `connection::on_signal_impl`, which is called with `cb_mutex` locked and gives it back while
    the callback runs. -/
def onSignalImpl (callback : Option (List (Call φ η))) : Program τ φ η :=
  callback.elim [] fun calls => .unlock .cb :: (userCalls calls ++ [.lock .cb])

/-- How far `connection::on_signal` comes with a signal of the bus. -/
inductive NameSignal (φ η : Type) where
  | noCallbacks
  | lookup (sending : Sending)
  | known (callback : Option (List (Call φ η)))
deriving DecidableEq, Repr

def onSignal : NameSignal φ η → Program τ φ η
  | .noCallbacks => guarded .cb []
  | .lookup sending => guarded .cb (sendWithCallback sending)
  | .known callback => guarded .cb (onSignalImpl callback)

/-- The callback of a reply. -/
inductive ReplyCallback (φ η : Type) where
  | none
  -- of the user or of `send_and_wait`, and what the library puts around it without a mutex
  | user (calls : List (Call φ η))
  -- of the asynchronous `add_match` and `remove_match`
  | matchRule (f : Option φ) (calls : List (Call φ η))
  -- of the look-up in `connection::on_signal`
  | nameOwner (callback : Option (List (Call φ η)))
deriving DecidableEq, Repr

def ReplyCallback.program : ReplyCallback φ η → Program τ φ η
  | .none => []
  | .user calls => userCalls calls
  | .matchRule f calls => guarded (.matchRule f) [] ++ userCalls calls
  | .nameOwner callback => guarded .cb (onSignalImpl callback)

/-- `connection::on_pending_call`; an entry that is found leads to a callback. -/
def onPendingCall (found : Option (LibCall × ReplyCallback φ η)) : Program τ φ η :=
  guarded .pending [] ++ found.elim [] fun (call, callback) => libdbus call ++ callback.program

/-- `on_signal` of `object_proxy`, `org_freedesktop_DBus_Properties` and
    `org_freedesktop_DBus_ObjectManager`, which unlock their mutex in front of a callback. -/
def onFilterSignal (f : φ) (callback : List (Call φ η)) : Program τ φ η :=
  guarded (.filterClass f) [] ++ userCalls callback

/-- `callback_message_filter::on_message`: its own callback, or `dispatch_msg` and the callback for
    the kind of the message. -/
def onMessage (f : φ) (callback dispatched : Option (List (Call φ η))) : Program τ φ η :=
  guarded (.filterClass f) [] ++
    callback.elim (dispatched.elim [] fun calls => guarded (.filterClass f) [] ++ userCalls calls)
      userCalls

/-- `object_handler::dbus_on_message`: the callback of the path or `on_method_call`, where
    `callback_object_handler` has another mutex. -/
def dbusOnMessage (h : η) (callback onMethodCall : Option (List (Call φ η))) : Program τ φ η :=
  guarded (.opaths h) [] ++
    callback.elim
      (onMethodCall.elim [] fun calls => guarded (.methodCallCb h) [] ++ userCalls calls) userCalls

/-- What libdbus calls without its lock for a message. -/
inductive Visit (φ η : Type) where
  | pendingCall (found : Option (LibCall × ReplyCallback φ η))
  | nameSignal (signal : NameSignal φ η)
  | filterSignal (f : φ) (callback : List (Call φ η))
  | callbackFilter (f : φ) (callback dispatched : Option (List (Call φ η)))
  | objectPath (h : η) (callback onMethodCall : Option (List (Call φ η)))
deriving DecidableEq, Repr

def Visit.program : Visit φ η → Program τ φ η
  | .pendingCall found => onPendingCall found
  | .nameSignal signal => onSignal signal
  | .filterSignal f callback => onFilterSignal f callback
  | .callbackFilter f callback dispatched => onMessage f callback dispatched
  | .objectPath h callback onMethodCall => dbusOnMessage h callback onMethodCall

/-- The dispatch status is asked for before the thread sleeps. -/
def slept (sleeps : List LibCall) : Program τ φ η :=
  sleeps.flatMap fun status => guarded .dispatchCond (libdbus status) ++ [.wait]

/-- Messages are dispatched once there are some. -/
def dispatched (status : LibCall) (dispatches : List (LibCall × Visit φ η)) : Program τ φ η :=
  libdbus status ++ dispatches.flatMap fun (call, visit) => libdbus call ++ visit.program

/-- A turn of `connection::msg_dispatcher`, with `dispatch_cond_mutex` locked while it
    dispatches. -/
def msgDispatcher (sleeps : List LibCall) (status : LibCall)
    (dispatches : List (LibCall × Visit φ η)) : Program τ φ η :=
  slept sleeps ++ guarded .dispatchCond (dispatched status dispatches)

/-! ## The I/O thread -/

/-- What an event comes to: a timeout that is due, or the watches of a descriptor. -/
inductive IoEvent where
  | timer (handle : Option LibCall)
  | watches (handles : List LibCall)
deriving DecidableEq, Repr

/-- `dbus_timeout_handle` and `dbus_watch_handle` are called with `watcher_mutex` unlocked. -/
def handleUnlocked (call : LibCall) : Program τ φ η :=
  .unlock .watcher :: (libdbus call ++ [.lock .watcher])

def onTimerfdEvent (handle : Option LibCall) : Program τ φ η :=
  guarded .timer [] ++ handle.elim [] handleUnlocked

def IoEvent.program : IoEvent → Program τ φ η
  | .timer handle => onTimerfdEvent handle
  | .watches handles => handles.flatMap handleUnlocked

/-- A turn of `connection::io_handler`. -/
def ioHandler (events : List IoEvent) : Program τ φ η :=
  guarded .watcher (events.flatMap IoEvent.program)

/-! ## The order -/

def rank : Mutex φ η → Nat
  | .dispatchCond => 0
  | .cb | .filterClass _ => 1
  | .matchRule _ | .opaths _ | .methodCallCb _ => 2
  | .connState => 3
  | .pending => 4
  | .libdbus => 5
  | .watcher => 6
  | .timer => 7

theorem rank_le (m : Mutex φ η) : rank m ≤ 7 := by
  cases m <;> simp [rank]

section Order

variable [DecidableEq φ] [DecidableEq η]

/-- The threads that are joined. -/
def Thread.isWorker : Thread τ → Prop
  | .client _ => False
  | .io | .dispatcher => True

/-- A program that uses mutexes from a rank on only. -/
abbrev From (lo : Nat) (p : Program τ φ η) : Prop := Fits rank Thread.isWorker lo [] p

theorem from_elim {α : Type} {lo : Nat} {p : Program τ φ η} {f : α → Program τ φ η}
    (x : Option α) (hp : From lo p) (hf : ∀ a, From lo (f a)) : From lo (x.elim p f) := by
  cases x with
  | none => exact hp
  | some a => exact hf a

theorem from_ite {lo : Nat} {p q : Program τ φ η} (b : Bool) (hp : From lo p) (hq : From lo q) :
    From lo (if b then p else q) := by
  cases b with
  | true => exact hp
  | false => exact hq

theorem from_event (event : Event) : From 6 (event.program : Program τ φ η) := by
  have hwatcher : From 6 (guarded .watcher [] : Program τ φ η) := .guarded le_rfl .nil
  have htimer : From 6 (guarded .timer [] : Program τ φ η) := .guarded (by simp [rank]) .nil
  cases event with
  | addWatch | removeWatch | toggledWatch => exact hwatcher
  | addTimeout | removeTimeout => exact htimer
  | toggledTimeout enabled => exact from_ite enabled htimer htimer
  | wakeupMain | dispatchStatus => exact .nil

theorem from_libdbus (call : LibCall) : From 5 (libdbus call : Program τ φ η) := by
  refine .flatMap fun part _ => ?_
  cases part with
  | locked events => exact .guarded le_rfl (.flatMap fun event _ => from_event event)
  | unlocked events =>
    exact .mono (.flatMap fun event _ => from_event event) (by decide)

theorem from_disconnectUnlocked (d : Teardown) : From 4 (disconnectUnlocked d : Program τ φ η) := by
  have hcall : ∀ call, From 4 (libdbus call : Program τ φ η) :=
    fun call => (from_libdbus call).mono (by decide)
  refine .append (.append (.append (.append (.append (.append (hcall _) ?_) (hcall _)) (hcall _))
    (from_ite _ (.join trivial) .nil)) (from_ite _ (.join trivial) .nil)) (hcall _)
  exact from_elim _ .nil fun (cancel, flush) =>
    .append (.guarded le_rfl (from_libdbus cancel)) (hcall flush)

omit [DecidableEq φ] [DecidableEq η] in
/-- The state is locked as far as `disconnect_impl` has it locked. -/
theorem underConnState_eq (call : LibCall) (teardown : Option Teardown) :
    (underConnState call teardown : Program τ φ η) =
      teardown.elim (guarded .connState (libdbus call)) fun d =>
        guarded .connState (libdbus call ++ libdbus d.removeFilterHandler) ++
          disconnectUnlocked d := by
  cases teardown <;> simp [underConnState, disconnectImpl, guarded]

theorem from_underConnState (call : LibCall) (teardown : Option Teardown) :
    From 3 (underConnState call teardown : Program τ φ η) := by
  have hcall : ∀ call, From 4 (libdbus call : Program τ φ η) :=
    fun call => (from_libdbus call).mono (by decide)
  rw [underConnState_eq]
  refine from_elim _ (.guarded le_rfl (hcall call)) fun d => .append (.guarded le_rfl ?_) ?_
  · exact .append (hcall call) (hcall _)
  · exact (from_disconnectUnlocked d).mono (by decide)

theorem from_send (sending : Sending) : From 3 (send sending : Program τ φ η) :=
  .append (from_underConnState _ _)
    (from_elim _ .nil fun call => (from_libdbus call).mono (by decide))

theorem from_sendWithCallback (sending : Sending) :
    From 3 (sendWithCallback sending : Program τ φ η) :=
  .append (from_underConnState _ _)
    (from_elim _ .nil fun call => .guarded (by simp [rank]) (from_libdbus call))

theorem from_sendAndWait (waiting : Waiting) : From 3 (sendAndWait waiting : Program τ φ η) :=
  .append (from_underConnState _ _) (from_elim _ .nil fun sending =>
    .append (from_sendWithCallback sending) (from_ite _ .wait .nil))

theorem from_matchRequest (request : Bool × Sending) :
    From 3 (matchRequest request : Program τ φ η) := by
  obtain ⟨callback, sending⟩ := request
  cases callback with
  | true => exact from_sendWithCallback sending
  | false => exact from_send sending

/-- A function that does something under a mutex if there is a connection. -/
theorem from_checked {α : Type} {lo : Nat} (hlo : lo ≤ 3) (check : Check) (x : Option α)
    {f : α → Program τ φ η} (hf : ∀ a, From lo (f a)) :
    From lo (isConnected check ++ x.elim [] f) :=
  .append ((from_underConnState _ _).mono hlo) (from_elim _ .nil hf)

theorem from_addMatch (f : Option φ) (c : MatchCall) : From 2 (addMatch f c : Program τ φ η) :=
  from_checked (by decide) _ _ fun request =>
    .guarded le_rfl (from_elim request .nil from_sendAndWait)

theorem from_addMatchAsync (f : Option φ) (c : MatchCallAsync) :
    From 2 (addMatchAsync f c : Program τ φ η) :=
  from_checked (by decide) _ _ fun request =>
    .guarded le_rfl (from_elim request .nil from_matchRequest)

theorem from_rules (f : φ) (rules : List RuleCall) :
    From 2 (rules.flatMap (RuleCall.program f) : Program τ φ η) := by
  refine .flatMap fun rule _ => ?_
  cases rule with
  | add c | remove c => exact from_addMatch (some f) c

theorem from_lookup (lookup : Option Waiting) :
    From 3 (lookup.elim [] sendAndWait : Program τ φ η) :=
  from_elim lookup .nil from_sendAndWait

theorem from_setAfterLookup (f : φ) (lookup : Option Waiting) (rules : Option (List RuleCall)) :
    From 1 (setAfterLookup f lookup rules : Program τ φ η) :=
  .append ((from_lookup lookup).mono (by decide))
    (from_elim _ .nil fun rules => .guarded le_rfl (from_rules f rules))

theorem from_setUnderLookup (f : φ) (lookup : Option Waiting) (rules : List RuleCall) :
    From 1 (setUnderLookup f lookup rules : Program τ φ η) :=
  .guarded le_rfl (.append ((from_lookup lookup).mono (by simp [rank])) (from_rules f rules))

theorem from_setNameCb (check : Check) (request : Option (Option (Bool × MatchCallAsync))) :
    From 1 (setNameCb check request : Program τ φ η) :=
  from_checked (by decide) _ _ fun rule => .guarded le_rfl (from_elim rule .nil fun (adds, c) =>
    from_ite adds (from_addMatchAsync none c) (from_addMatchAsync none c))

/-- A function that calls libdbus under a mutex that comes before the state of the connection. -/
theorem from_guardedCheck {m : Mutex φ η} (hm : rank m = 2) (check : Check)
    (call : Option LibCall) :
    From 2 (guarded m (isConnected check ++ call.elim [] libdbus) : Program τ φ η) := by
  refine .guarded hm.ge ?_
  rw [hm]
  exact from_checked le_rfl check call fun call => (from_libdbus call).mono (by decide)

theorem from_call (call : Call φ η) : From 1 (call.program : Program τ φ η) := by
  have hstate : ∀ call teardown, From 1 (underConnState call teardown : Program τ φ η) :=
    fun call teardown => (from_underConnState call teardown).mono (by decide)
  cases call with
  | connect | isConnected | disconnect => exact hstate _ _
  | send sending => exact (from_send sending).mono (by decide)
  | sendWithCallback sending => exact (from_sendWithCallback sending).mono (by decide)
  | sendAndWait waiting => exact (from_sendAndWait waiting).mono (by decide)
  | setNameCb check request => exact from_setNameCb check request
  | constructFilter installHandler => exact (from_libdbus installHandler).mono (by decide)
  | destroyFilter f check requests | unregisterObjectPath h check requests
  | destroyHandler h check requests => exact (from_guardedCheck rfl check requests).mono (by decide)
  | addMatch f c | removeMatch f c => exact (from_addMatch f c).mono (by decide)
  | addMatchAsync f c | removeMatchAsync f c => exact (from_addMatchAsync f c).mono (by decide)
  | setSignalCallback f lookup rules | propertiesSetCallback f lookup rules
  | objectManagerSetCallback f lookup rules => exact from_setAfterLookup f lookup rules
  | clearSignalCallbacks f rules => exact .guarded le_rfl (from_rules f rules)
  | setInterfacesCallback f lookup rules | setPropertiesChangedCallback f lookup rules =>
    exact from_setUnderLookup f lookup rules
  | setFilterCallback f => exact .guarded le_rfl .nil
  | registerObjectPath h new =>
    refine .mono (.guarded le_rfl (from_elim new .nil fun (check, call) => ?_)) (by simp [rank])
    exact from_checked le_rfl check call fun call => (from_libdbus call).mono (by decide)
  | setMethodCallCb h => exact .mono (.guarded le_rfl .nil) (by simp [rank])

theorem from_userCalls (calls : List (Call φ η)) : From 1 (userCalls calls : Program τ φ η) :=
  .flatMap fun call _ => from_call call

theorem under_onSignalImpl (callback : Option (List (Call φ η))) :
    Fits rank Thread.isWorker 1 [.cb] (onSignalImpl callback : Program τ φ η) := by
  cases callback with
  | none => exact .nil
  | some calls => exact (from_userCalls calls).reopened le_rfl

theorem from_onSignal (signal : NameSignal φ η) : From 1 (onSignal signal : Program τ φ η) := by
  cases signal with
  | noCallbacks => exact .guarded le_rfl .nil
  | lookup sending => exact .guarded le_rfl ((from_sendWithCallback sending).mono (by simp [rank]))
  | known callback => exact (under_onSignalImpl callback).closed le_rfl

theorem from_reply (callback : ReplyCallback φ η) : From 1 (callback.program : Program τ φ η) := by
  cases callback with
  | none => exact .nil
  | user calls => exact from_userCalls calls
  | matchRule f calls =>
    exact .append (.mono (.guarded le_rfl .nil) (by simp [rank])) (from_userCalls calls)
  | nameOwner callback => exact (under_onSignalImpl callback).closed le_rfl

theorem from_visit (visit : Visit φ η) : From 1 (visit.program : Program τ φ η) := by
  have hmutex : ∀ m : Mutex φ η, 1 ≤ rank m → From 1 (guarded m [] : Program τ φ η) :=
    fun m hm => .guarded hm .nil
  cases visit with
  | pendingCall found =>
    refine .append (hmutex _ (by simp [rank])) (from_elim _ .nil fun (call, callback) => ?_)
    exact .append ((from_libdbus call).mono (by decide)) (from_reply callback)
  | nameSignal signal => exact from_onSignal signal
  | filterSignal f callback => exact .append (hmutex _ le_rfl) (from_userCalls callback)
  | callbackFilter f callback dispatched =>
    refine .append (hmutex _ le_rfl) (from_elim _ (from_elim _ .nil fun calls => ?_) from_userCalls)
    exact .append (hmutex _ le_rfl) (from_userCalls calls)
  | objectPath h callback onMethodCall =>
    refine .append (hmutex _ (by simp [rank]))
      (from_elim _ (from_elim _ .nil fun calls => ?_) from_userCalls)
    exact .append (hmutex _ (by simp [rank])) (from_userCalls calls)

theorem from_dispatched (status : LibCall) (dispatches : List (LibCall × Visit φ η)) :
    From 1 (dispatched status dispatches : Program τ φ η) :=
  .append ((from_libdbus status).mono (by decide)) (.flatMap fun (call, visit) _ =>
    .append ((from_libdbus call).mono (by decide)) (from_visit visit))

theorem from_slept (sleeps : List LibCall) : From 0 (slept sleeps : Program τ φ η) :=
  .flatMap fun call _ =>
    .append (.guarded le_rfl ((from_libdbus call).mono (by simp [rank]))) .wait

theorem from_msgDispatcher (sleeps : List LibCall) (status : LibCall)
    (dispatches : List (LibCall × Visit φ η)) :
    From 0 (msgDispatcher sleeps status dispatches : Program τ φ η) :=
  .append (from_slept sleeps) (.guarded le_rfl (from_dispatched status dispatches))

theorem from_ioHandler (events : List IoEvent) : From 5 (ioHandler events : Program τ φ η) := by
  have hwatcher : 5 ≤ rank (.watcher : Mutex φ η) := by simp [rank]
  have hhandle : ∀ call,
      Fits rank Thread.isWorker 5 [.watcher] (handleUnlocked call : Program τ φ η) :=
    fun call => (from_libdbus call).reopened hwatcher
  refine .closed hwatcher (.flatMap fun event _ => ?_)
  cases event with
  | timer handle =>
    refine .append (.under hwatcher (.guarded le_rfl .nil)) ?_
    cases handle with
    | none => exact .nil
    | some call => exact hhandle call
  | watches handles => exact .flatMap fun call _ => hhandle call

end Order

/-! ## Runs -/

/-- What a thread takes up, and a step of a thread. -/
inductive Label (τ φ η : Type) where
  | calls (t : τ) (calls : List (Call φ η))
  | dispatch (sleeps : List LibCall) (status : LibCall) (dispatches : List (LibCall × Visit φ η))
  | handleEvents (events : List IoEvent)
  | go (t : Thread τ)
deriving DecidableEq, Repr

section Runs

variable [DecidableEq τ] [DecidableEq φ] [DecidableEq η]

def step (s : State (Thread τ) (Mutex φ η)) :
    Label τ φ η → Option (State (Thread τ) (Mutex φ η))
  | .calls t calls => s.start (.client t) (userCalls calls)
  | .dispatch sleeps status dispatches =>
    s.start .dispatcher (msgDispatcher sleeps status dispatches)
  | .handleEvents events => s.start .io (ioHandler events)
  | .go t => s.go t

def initial : State (Thread τ) (Mutex φ η) where
  program _ := []
  holder _ := none

def system (τ φ η : Type) [DecidableEq τ] [DecidableEq φ] [DecidableEq η] :
    TransitionSystem (State (Thread τ) (Mutex φ η)) (Label τ φ η) where
  init s := s = initial
  step := step

/-- Nobody waits for a reply or for the end of a thread with a mutex locked. -/
def WaitsUnlocked (_ : State (Thread τ) (Mutex φ η)) : Label τ φ η → Prop
  | .calls _ calls => waitsUnlocked [] (userCalls calls : Program τ φ η) = true
  | .dispatch sleeps status dispatches =>
    waitsUnlocked [] (msgDispatcher sleeps status dispatches : Program τ φ η) = true
  | .handleEvents _ => True
  | .go _ => True

section Threads

omit [DecidableEq τ]

omit [DecidableEq φ] [DecidableEq η] in
theorem neverWaits_event (event : Event) : NeverWaits (event.program : Program τ φ η) := by
  cases event with
  | toggledTimeout enabled => cases enabled <;> exact .guarded .nil
  | wakeupMain | dispatchStatus => exact .nil
  | _ => exact .guarded .nil

omit [DecidableEq φ] [DecidableEq η] in
theorem neverWaits_libdbus (call : LibCall) : NeverWaits (libdbus call : Program τ φ η) := by
  refine .flatMap fun part _ => ?_
  cases part with
  | locked events => exact .guarded (.flatMap fun event _ => neverWaits_event event)
  | unlocked events => exact .flatMap fun event _ => neverWaits_event event

omit [DecidableEq φ] [DecidableEq η] in
theorem neverWaits_ioHandler (events : List IoEvent) :
    NeverWaits (ioHandler events : Program τ φ η) := by
  have hhandle : ∀ call, NeverWaits (handleUnlocked call : Program τ φ η) :=
    fun call => .unlock ((neverWaits_libdbus call).append (.lock .nil))
  refine .guarded (.flatMap fun event _ => ?_)
  cases event with
  | timer handle =>
    refine .append (.guarded .nil) ?_
    cases handle with
    | none => exact .nil
    | some call => exact hhandle call
  | watches handles => exact .flatMap fun call _ => hhandle call

theorem runs_userCalls (t : τ) {calls : List (Call φ η)}
    (hwaits : waitsUnlocked [] (userCalls calls : Program τ φ η) = true) :
    Runs rank Thread.isWorker (.client t) [] (userCalls calls : Program τ φ η) :=
  ((from_userCalls calls).mono (Nat.zero_le 1)).runs hwaits fun h => h.elim

theorem runs_ioHandler (events : List IoEvent) :
    Runs rank Thread.isWorker .io [] (ioHandler events : Program τ φ η) := by
  have hnever := neverWaits_ioHandler (τ := τ) (φ := φ) (η := η) events
  exact ((from_ioHandler events).mono (Nat.zero_le 5)).runs hnever.waitsUnlocked
    fun _ u hu => (hnever _ hu).2 u rfl

theorem runs_msgDispatcher {sleeps : List LibCall} {status : LibCall}
    {dispatches : List (LibCall × Visit φ η)}
    (hwaits : waitsUnlocked [] (msgDispatcher sleeps status dispatches : Program τ φ η) = true) :
    Runs rank Thread.isWorker .dispatcher []
      (msgDispatcher sleeps status dispatches : Program τ φ η) := by
  refine (from_msgDispatcher sleeps status dispatches).runs hwaits fun _ u hu => ?_
  have hslept : heldAfter [] (slept sleeps : Program τ φ η) = [] :=
    (from_slept sleeps).heldAfter [] nofun
  rw [msgDispatcher, waitsUnlocked_append, hslept, Bool.and_eq_true] at hwaits
  obtain hu | hu := List.mem_append.mp hu
  · obtain ⟨call, -, hcall⟩ := List.mem_flatMap.mp hu
    simp only [guarded, List.mem_cons, List.mem_append, reduceCtorEq, List.not_mem_nil, or_false,
      false_or] at hcall
    exact (neverWaits_libdbus call _ hcall).2 u rfl
  · -- Messages are dispatched with the mutex locked.
    have hguarded : waitsUnlocked [.dispatchCond]
        (dispatched status dispatches ++ [.unlock .dispatchCond] : Program τ φ η) = true := hwaits.2
    rw [waitsUnlocked_append, Bool.and_eq_true] at hguarded
    have hkept : .unlock .dispatchCond ∉ (dispatched status dispatches : Program τ φ η) := by
      intro hunlock
      have habove := (from_dispatched status dispatches).above _ hunlock
      simp [rank] at habove
    refine join_notMem hguarded.1 List.mem_cons_self hkept u ?_
    simpa [guarded] using hu

end Threads

/-- In every run in which nobody waits for a reply or for the end of a thread with a mutex locked,
    nobody waits for himself: a thread that has something left to do can go on or waits, directly
    or through others, for one that can. -/
theorem moves_of_reachable {s : State (Thread τ) (Mutex φ η)}
    (h : (system τ φ η).ReachableWhen WaitsUnlocked s) {t : Thread τ} (ht : s.program t ≠ []) :
    ∃ u, Relation.ReflTransGen s.WaitsFor t u ∧ (s.go u).isSome = true := by
  have hinv : Inv rank Thread.isWorker s := by
    apply h.invariant
    case initial =>
      rintro _ rfl
      exact inv_idle
    case preserved =>
      intro s label s' hinv hwaits hstep
      cases label with
      | calls t calls => exact inv_start hinv (runs_userCalls t hwaits) hstep
      | dispatch sleeps status dispatches => exact inv_start hinv (runs_msgDispatcher hwaits) hstep
      | handleEvents events => exact inv_start hinv (runs_ioHandler events) hstep
      | go t => exact inv_go hinv hstep
  exact hinv.moves rank_le ht

end Runs

/-! ### Who waits for whom -/

/-- A message is sent while the I/O thread looks at its events and a reply is dispatched. -/
def busyRun : List (Label Nat Nat Nat) :=
  let sending : Sending := ⟨⟨[.locked []], none⟩, some [.locked [.toggledWatch]]⟩
  [.calls 0 [.sendWithCallback sending], .handleEvents [.watches [[.locked []]]],
    .dispatch [] [] [([], .pendingCall none)], .go .io, .go (.client 0), .go (.client 0),
    .go (.client 0), .go (.client 0), .go (.client 0), .go (.client 0), .go .dispatcher]

def busy : State (Thread Nat) (Mutex Nat Nat) :=
  ((system Nat Nat Nat).run initial busyRun).getD initial

/-- The dispatch thread waits for the client, which waits for the I/O thread. -/
theorem busy_waitsFor : busy.WaitsFor .dispatcher (.client 0) ∧ busy.WaitsFor (.client 0) .io :=
  ⟨.lock rfl rfl, .lock rfl rfl⟩

theorem busy_moves :
    ∃ u, Relation.ReflTransGen busy.WaitsFor .dispatcher u ∧ (busy.go u).isSome = true := by
  have hallowed : (system Nat Nat Nat).AllowedRun WaitsUnlocked initial busyRun :=
    ⟨rfl, trivial, rfl, trivial, trivial, trivial, trivial, trivial, trivial, trivial, trivial,
      trivial⟩
  have hreachable : (system Nat Nat Nat).ReachableWhen WaitsUnlocked busy :=
    TransitionSystem.reachableWhen_of_run busyRun rfl hallowed rfl
  have hprogram : busy.program .dispatcher ≠ [] := nofun
  exact moves_of_reachable hreachable hprogram

/-- The connection turns out to be dropped when a path is registered, while a method call for the
    path is dispatched. -/
def droppedRun : List (Label Nat Nat Nat) :=
  let teardown : Teardown := ⟨[], [], none, [], [], false, true, []⟩
  [.calls 0 [.registerObjectPath 0 (some (⟨[], some teardown⟩, none))],
    .dispatch [] [] [([], .objectPath 0 none none)], .go (.client 0), .go (.client 0),
    .go (.client 0), .go .dispatcher]

def dropped : State (Thread Nat) (Mutex Nat Nat) :=
  ((system Nat Nat Nat).run initial droppedRun).getD initial

/-- The threads wait for each other: the one has the mutex that the other is to lock, and joins
    it. -/
theorem dropped_waitsFor :
    (system Nat Nat Nat).run initial droppedRun = some dropped ∧
      dropped.WaitsFor (.client 0) .dispatcher ∧ dropped.WaitsFor .dispatcher (.client 0) :=
  ⟨rfl, .join rfl nofun, .lock rfl rfl⟩

end Ultrabus.Locking
