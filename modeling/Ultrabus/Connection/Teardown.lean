import Mathlib.Logic.Function.Basic
import Ultrabus.Lib.OrderedMap
import Ultrabus.Lib.Transition

/-! # Tearing a connection down

Any number of threads in `connection::send` and `send_and_wait`, the dispatch thread in
`on_pending_call`, and one run of `disconnect_impl`, by a thread that calls `disconnect` or
by one whose `is_connected` notices that the bus has dropped.  The connection is up at first.

A call is named by an element of `κ`, which is the address of its pending call too.
`is_connected` is one step, and so is every access to `pending_messages`, to `ctx` and to
`conn_state` outside of a mutex. -/

namespace Ultrabus.Teardown

/-! ## Threads -/

/-- The function that a client calls: `send` with a callback, which may be empty, `send`
    without a reply, or `send_and_wait`. -/
inductive SendKind where
  | withReply (callback : Bool)
  | plain
  | andWait
deriving DecidableEq, Repr

/-- The callback that is stored for the call is not empty. -/
def SendKind.hasCallback : SendKind → Bool
  | .withReply callback => callback
  | .plain => false
  | .andWait => true

/-- Where the thread of a call is. -/
inductive ClientPc where
  | idle
  -- `send_and_wait` in front of its own `is_connected`
  | atFirstCheck
  | atCheck
  -- the thread's `is_connected` runs `disconnect_impl`
  | tearsDown
  -- in front of `dbus_connection_send`
  | atSend
  | atLock
  -- in front of `dbus_connection_send_with_reply`
  | locked
  | sent
  | notifySet
  | inserted
  -- in the loop of `send_and_wait`
  | waiting
  | returned (result : Bool)
deriving DecidableEq, Repr

/-- One call and the state libdbus keeps for it. -/
structure Call where
  pc : ClientPc
  kind : SendKind
  -- libdbus has made a pending call
  pending : Bool
  -- `dbus_pending_call_set_notify` has been called
  hasNotify : Bool
  completed : Bool
  cancelled : Bool
  -- how often the callback has been run
  runs : Nat
  -- how often `dbus_pending_call_unref` has been called
  unrefs : Nat
deriving DecidableEq, Repr

/-- Where the dispatch thread is: in `msg_dispatcher` or in `on_pending_call`. -/
inductive DispatchPc (κ : Type) where
  | idle
  | atLock (c : κ)
  | locked (c : κ)
  -- the entry is taken out of the map
  | found (c : κ) (callback : Bool)
  -- the pending call is unreferenced and the callback is not run yet
  | released (c : κ)
  | finished
deriving DecidableEq, Repr

/-- Where `disconnect_impl` is. -/
inductive TeardownPc (κ : Type) where
  | notStarted
  | atTestBus
  | atCancel
  | atClose
  | atReset
  -- the loop of `dbus_pending_call_unref`: in front of `begin ()` or of `++` at the last entry,
  -- of the look at an entry, and of the call
  | atUnref (pos : Option κ)
  | atRead (c : κ)
  | atUnrefCall (c : κ)
  | atClear
  | atJoinIo
  | atStop
  | atJoin
  | atUnrefCtx
  | atNullCtx
  | atFinish
  | done
deriving DecidableEq, Repr

inductive ConnState where
  | connected
  | disconnecting
  | disconnected
deriving DecidableEq, Repr

/-- The pointer `ctx`; it dangles between `dbus_connection_unref` and `ctx = nullptr`. -/
inductive Ctx where
  | live
  | dangling
  | null
deriving DecidableEq, Repr

/-- Who holds `pending_mutex`. -/
inductive Owner (κ : Type) where
  | client (c : κ)
  | dispatcher
deriving DecidableEq, Repr

/-! ## State -/

structure State (κ : Type) where
  call : κ → Call
  -- the entries, with whether the stored callback is not empty
  pendingMessages : List (κ × Bool)
  pendingMutex : Option (Owner κ)
  dispatch : DispatchPc κ
  stopDispatchThread : Bool
  connState : ConnState
  ctx : Ctx
  -- `dbus_connection_get_is_connected (ctx)`
  busUp : Bool
  privateConnection : Bool
  teardown : TeardownPc κ
  -- the call whose `is_connected` runs `disconnect_impl`
  teardownBy : Option κ

inductive Label (κ : Type) where
  | enter (c : κ) (kind : SendKind)
  | firstCheck (c : κ)
  | check (c : κ)
  | sendPlain (c : κ) (result : Bool)
  | lock (c : κ)
  | sendWithReply (c : κ) (result : Bool)
  | setNotify (c : κ)
  | emplace (c : κ)
  | unlock (c : κ)
  | finishWait (c : κ)
  | dropBus
  | complete (c : κ)
  | lockPending
  | findEntry
  | releaseCall
  | runCallback
  | stopDispatcher
  | disconnect
  | teardown
deriving DecidableEq, Repr

variable {κ : Type} [LinearOrder κ]

/-- `std::less<DBusPendingCall*>`. -/
def addressLess (a b : κ) : Bool := a < b

def State.setCall (s : State κ) (c : κ) (call : Call) : State κ :=
  { s with call := Function.update s.call c call }

def State.setPc (s : State κ) (c : κ) (pc : ClientPc) : State κ :=
  s.setCall c { s.call c with pc := pc }

/-- `pending_messages.find`. -/
def State.entry (s : State κ) (c : κ) : Option Bool :=
  (s.pendingMessages.find? fun entry => entry.1 = c).map Prod.snd

/-- The entry after a position of an iteration over the map. -/
def State.nextEntry (s : State κ) (pos : Option κ) : Option κ :=
  (s.pendingMessages.find? fun entry => pos.all fun last => last < entry.1).map Prod.fst

/-! ## Steps -/

/-- `conn_state = conn_state_disconnecting; conn_state_lock.unlock ();`. -/
def State.beginTeardown (s : State κ) (by_ : Option κ) : State κ :=
  { s with connState := .disconnecting, teardown := .atTestBus, teardownBy := by_ }

/-- `connection::is_connected` in the thread of a call, which goes on at `next`. -/
def isConnected (s : State κ) (c : κ) (next : ClientPc) : State κ :=
  if s.connState = .connected then
    if s.busUp then s.setPc c next else (s.setPc c .tearsDown).beginTeardown (some c)
  else s.setPc c (.returned false)

/-- `for (auto& entry : pending_messages) dbus_pending_call_cancel (entry.first);`. -/
def State.cancelAll (s : State κ) : State κ :=
  { s with call := fun c =>
      { s.call c with cancelled := (s.call c).cancelled || (s.entry c).isSome } }

/-- The next step of `connection::disconnect_impl`. -/
def teardownStep (s : State κ) : Option (State κ) :=
  match s.teardown with
  | .notStarted => none
  | .atTestBus => some { s with teardown := if s.busUp then .atCancel else .atReset }
  | .atCancel =>
    if s.pendingMutex = none then some { s.cancelAll with teardown := .atClose } else none
  | .atClose =>
    some { s with busUp := s.busUp && !s.privateConnection, teardown := .atReset }
  | .atReset => some { s with teardown := .atUnref none }
  | .atUnref pos =>
    match s.nextEntry pos with
    | some c => some { s with teardown := .atRead c }
    | none => some { s with teardown := .atClear }
  -- An entry that has been erased since then is still what the loop finds in its place.
  | .atRead c => some { s with teardown := .atUnrefCall c }
  | .atUnrefCall c =>
    some { s.setCall c { s.call c with unrefs := (s.call c).unrefs + 1 } with
      teardown := .atUnref (some c) }
  | .atClear => some { s with pendingMessages := [], teardown := .atJoinIo }
  | .atJoinIo => some { s with teardown := .atStop }
  | .atStop => some { s with stopDispatchThread := true, teardown := .atJoin }
  | .atJoin => if s.dispatch = .finished then some { s with teardown := .atUnrefCtx } else none
  | .atUnrefCtx => some { s with ctx := .dangling, teardown := .atNullCtx }
  | .atNullCtx => some { s with ctx := .null, teardown := .atFinish }
  | .atFinish =>
    -- The thread whose `is_connected` has noticed the drop is told that there is no connection.
    let s := match s.teardownBy with
      | some c => s.setPc c (.returned false)
      | none => s
    some { s with connState := .disconnected, teardown := .done }
  | .done => none

def step (s : State κ) : Label κ → Option (State κ)
  | .enter c kind =>
    if (s.call c).pc = .idle then
      some (s.setCall c { s.call c with
        pc := if kind = .andWait then .atFirstCheck else .atCheck, kind := kind })
    else none
  | .firstCheck c =>
    if (s.call c).pc = .atFirstCheck then some (isConnected s c .atCheck) else none
  | .check c =>
    if (s.call c).pc = .atCheck then
      some (isConnected s c (if (s.call c).kind = .plain then .atSend else .atLock))
    else none
  | .sendPlain c result =>
    if (s.call c).pc = .atSend then some (s.setPc c (.returned result)) else none
  | .lock c =>
    if (s.call c).pc = .atLock ∧ s.pendingMutex = none then
      some { s.setPc c .locked with pendingMutex := some (.client c) }
    else none
  | .sendWithReply c result =>
    -- There is no pending call on a connection that is lost.
    if (s.call c).pc = .locked ∧ (result = true → s.busUp = true ∧ s.ctx ≠ .null) then
      if result then some (s.setCall c { s.call c with pc := .sent, pending := true })
      else some { s.setPc c (.returned false) with pendingMutex := none }
    else none
  | .setNotify c =>
    if (s.call c).pc = .sent then
      some (s.setCall c { s.call c with pc := .notifySet, hasNotify := true })
    else none
  | .emplace c =>
    if (s.call c).pc = .notifySet then
      some { s.setPc c .inserted with
        pendingMessages :=
          OrderedMap.emplace addressLess c (s.call c).kind.hasCallback s.pendingMessages }
    else none
  | .unlock c =>
    if (s.call c).pc = .inserted then
      some { s.setPc c (if (s.call c).kind = .andWait then .waiting else .returned true) with
        pendingMutex := none }
    else none
  | .finishWait c =>
    -- The callback has set `got_reply`.
    if (s.call c).pc = .waiting ∧ (s.call c).runs ≠ 0 then some (s.setPc c (.returned true))
    else none
  | .dropBus => some { s with busUp := false }
  | .complete c =>
    -- The notify function that is set at this moment is invoked.
    if (s.call c).pending = true ∧ (s.call c).completed = false ∧
        (s.call c).cancelled = false ∧ s.dispatch = .idle then
      some { s.setCall c { s.call c with completed := true } with
        dispatch := if (s.call c).hasNotify then .atLock c else .idle }
    else none
  | .lockPending =>
    match s.dispatch with
    | .atLock c =>
      if s.pendingMutex = none then
        some { s with pendingMutex := some .dispatcher, dispatch := .locked c }
      else none
    | _ => none
  | .findEntry =>
    match s.dispatch with
    | .locked c =>
      match s.entry c with
      | none => some { s with pendingMutex := none, dispatch := .idle }
      | some callback =>
        some { s with
          pendingMessages := s.pendingMessages.filter fun entry => entry.1 ≠ c
          pendingMutex := none
          dispatch := .found c callback }
    | _ => none
  | .releaseCall =>
    match s.dispatch with
    | .found c callback =>
      some { s.setCall c { s.call c with unrefs := (s.call c).unrefs + 1 } with
        dispatch := if callback then .released c else .idle }
    | _ => none
  | .runCallback =>
    match s.dispatch with
    | .released c =>
      some { s.setCall c { s.call c with runs := (s.call c).runs + 1 } with dispatch := .idle }
    | _ => none
  | .stopDispatcher =>
    if s.dispatch = .idle ∧ s.stopDispatchThread = true then
      some { s with dispatch := .finished }
    else none
  | .disconnect =>
    if s.connState = .connected then some (s.beginTeardown none) else none
  | .teardown => teardownStep s

/-- A connection that is up, with no calls yet. -/
def initial (privateConnection : Bool) : State κ where
  call _ := ⟨.idle, .plain, false, false, false, false, 0, 0⟩
  pendingMessages := []
  pendingMutex := none
  dispatch := .idle
  stopDispatchThread := false
  connState := .connected
  ctx := .live
  busUp := true
  privateConnection := privateConnection
  teardown := .notStarted
  teardownBy := none

def system (κ : Type) [LinearOrder κ] : TransitionSystem (State κ) (Label κ) where
  init s := ∃ privateConnection, s = initial privateConnection
  step := step

end Ultrabus.Teardown
